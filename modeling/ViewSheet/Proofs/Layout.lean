/-
  Layout: what a source may look like without saying anything else.

  1. **Program**: a source is cut into lines, whatever ends them, and of a line counts what stands
     before a comment and the blanks in front of it.

  2. **Specification**: `Joined lines ends text` puts a text together from lines and the ends
     between them, each a line feed, a carriage return, or the two in a row.  `Extended line line'`
     puts more behind a line: blanks, and perhaps a comment.

  3. **The crux**: a comment behind a line cannot start earlier than where it was put, since no
     mark starts inside another (`before_append_mark`).  So a line that ends in a part of the mark,
     or has a comment already, counts for what it did (`codeOf_extended`).

  4. **Result** (`parse_relaid`): the extended lines of a source, joined in any way, are parsed like
     the source.
-/
import ViewSheet.Proofs.Writing

namespace ViewSheet

namespace Text

/-! ## Lines and their ends -/

/-- What stands between two lines. -/
inductive LineEnd where
  | lineFeed
  | carriageReturn
  | both
deriving DecidableEq, Repr

namespace LineEnd

/-- The characters of the end. -/
def chars : LineEnd → List Char
  | lineFeed => ['\n']
  | carriageReturn => ['\r']
  | both => ['\r', '\n']

end LineEnd

/-- A text is put together from lines with ends between them.  No line feed follows a carriage
    return that is an end by itself, since the two would be one end. -/
inductive Joined : List (List Char) → List LineEnd → List Char → Prop where
  | last (line : List Char) : Joined [line] [] line
  | more {lines : List (List Char)} {ends : List LineEnd} {text : List Char}
      (rest : Joined lines ends text) (line : List Char) (e : LineEnd)
      (apart : e = .carriageReturn → text.head? ≠ some '\n') :
      Joined (line :: lines) (e :: ends) (line ++ e.chars ++ text)

/-- A line ends where the first end stands. -/
theorem splitLines_line {line : List Char} (h : ∀ c ∈ line, isBreak c = false) {e : LineEnd}
    {text : List Char} (apart : e = .carriageReturn → text.head? ≠ some '\n') :
    splitLines (line ++ e.chars ++ text) = line :: splitLines text := by
  induction line with
  | nil =>
    cases e with
    | lineFeed => exact splitLines_break rfl fun _ hc => absurd hc (by decide)
    | carriageReturn =>
      refine splitLines_break rfl fun tail _ htext => apart rfl ?_
      rw [show text = '\n' :: tail from htext]
      rfl
    | both => rfl
  | cons c line ih =>
    have hline := ih fun d hd => h d (List.mem_cons_of_mem c hd)
    obtain ⟨first, rest, hrest, hsplit⟩ :=
      splitLines_other (h c List.mem_cons_self) (line ++ e.chars ++ text)
    rw [hline] at hrest
    obtain ⟨rfl, rfl⟩ := List.cons.inj hrest
    exact hsplit

/-- A joined text is cut into its lines. -/
theorem splitLines_of_joined {lines : List (List Char)} {ends : List LineEnd} {text : List Char}
    (h : Joined lines ends text) (hlines : ∀ line ∈ lines, ∀ c ∈ line, isBreak c = false) :
    splitLines text = lines := by
  induction h with
  | last line => exact splitLines_of_unbroken (hlines line List.mem_cons_self)
  | more _ line e apart ih =>
    rw [splitLines_line (hlines line List.mem_cons_self) apart,
      ih fun l hl => hlines l (List.mem_cons_of_mem line hl)]

/-! ## The first mark of a text -/

theorem stripStart?_eq_none {mark cs : List Char} (h : ¬ mark <+: cs) :
    stripStart? mark cs = none := by
  cases hstrip : stripStart? mark cs with
  | none => rfl
  | some rest => exact absurd ⟨rest, (eq_append_of_stripStart? hstrip).symm⟩ h

/-- What follows a text that has the mark does not matter. -/
theorem before_append_of_infix {mark cs : List Char} (h : mark <:+: cs) (more : List Char) :
    before mark (cs ++ more) = before mark cs := by
  induction cs with
  | nil =>
    rw [List.infix_nil.mp h]
    cases more <;> rfl
  | cons c cs ih =>
    rw [List.cons_append, before_cons, before_cons]
    by_cases hhere : mark <+: c :: cs
    · obtain ⟨rest, hrest⟩ := hhere
      have hall : c :: (cs ++ more) = mark ++ (rest ++ more) := by
        rw [← List.append_assoc, hrest, List.cons_append]
      rw [hall, stripStart?_append, ← hrest, stripStart?_append]
    · have hlater : mark <:+: cs := (List.infix_cons_iff.mp h).resolve_left hhere
      -- the mark is not longer than the rest of the text, so what follows cannot complete it
      have hall : ¬ mark <+: c :: (cs ++ more) := by
        intro hprefix
        have hlength := hlater.length_le
        have hfront : c :: cs <+: c :: (cs ++ more) := List.prefix_append (c :: cs) more
        exact hhere (List.prefix_of_prefix_length_le hprefix hfront (by
          rw [List.length_cons]
          omega))
      rw [stripStart?_eq_none hall, stripStart?_eq_none hhere, ih hlater]

/-- A mark is the first if none is complete before its last character. -/
theorem before_append_mark {mark head : List Char} (h : ¬ mark <:+: head ++ mark.dropLast)
    (tail : List Char) : before mark (head ++ mark ++ tail) = head := by
  induction head with
  | nil =>
    cases mark with
    | nil => exact absurd (List.nil_infix) h
    | cons m ms =>
      show before (m :: ms) (m :: (ms ++ tail)) = []
      rw [before_cons, ← List.cons_append, stripStart?_append]
  | cons c head ih =>
    rw [List.cons_append, List.infix_cons_iff, not_or] at h
    have hhere : ¬ mark <+: c :: (head ++ mark ++ tail) := by
      intro hprefix
      -- a mark that starts here is complete before the last character of the other
      have hshort : c :: (head ++ mark.dropLast) <+: c :: (head ++ mark ++ tail) := by
        rw [List.append_assoc, List.cons_prefix_cons]
        exact ⟨rfl, (List.prefix_append_right_inj head).mpr
          ((List.dropLast_prefix mark).trans (List.prefix_append mark tail))⟩
      refine h.1 (List.prefix_of_prefix_length_le hprefix hshort ?_)
      rw [List.length_cons, List.length_append, List.length_dropLast]
      omega
    rw [List.cons_append, List.cons_append, before_cons, stripStart?_eq_none hhere, ih h.2]

/-! ## Lines with more behind them -/

theorem trimEnd_append_of_blanks (cs : List Char) {blanks : List Char}
    (h : ∀ c ∈ blanks, isBlank c = true) : trimEnd (cs ++ blanks) = trimEnd cs := by
  induction cs with
  | nil => exact trimEnd_eq_nil.mpr h
  | cons c cs ih => rw [List.cons_append, trimEnd, trimEnd, ih]

/-- A line with more behind it: blanks, and perhaps a comment. -/
inductive Extended (line : List Char) : List Char → Prop where
  | blanks (blanks : List Char) (blank : ∀ c ∈ blanks, isBlank c = true ∧ isBreak c = false) :
      Extended line (line ++ blanks)
  | comment (blanks note : List Char)
      (blank : ∀ c ∈ blanks, isBlank c = true ∧ isBreak c = false)
      (unbroken : ∀ c ∈ note, isBreak c = false) :
      Extended line (line ++ blanks ++ commentMark ++ note)

/-- Blanks behind a line make no mark. -/
theorem infix_append_blanks {line blanks : List Char} (h : ∀ c ∈ blanks, isBlank c = true) :
    commentMark <:+: line ++ blanks ↔ commentMark <:+: line := by
  refine ⟨fun hmark => ?_, fun hmark => hmark.trans (List.prefix_append _ _).isInfix⟩
  induction blanks using List.reverseRecOn with
  | nil => rwa [List.append_nil] at hmark
  | append_singleton blanks c ih =>
    rw [← List.append_assoc, List.infix_concat_iff] at hmark
    rcases hmark with ⟨front, hfront⟩ | hmark
    · -- the mark does not end in a blank
      have hlast := congrArg List.getLast? hfront
      rw [List.getLast?_append, List.getLast?_concat] at hlast
      have hdash : '-' = c := Option.some.inj hlast
      have hblank := h c (by simp)
      rw [← hdash] at hblank
      exact absurd hblank (by decide)
    · exact ih (fun d hd => h d (List.mem_append_left _ hd)) hmark

/-- No mark is complete in a part of another that lies behind a text without one. -/
theorem not_infix_append_part {cs : List Char} (h : ¬ commentMark <:+: cs) :
    ¬ commentMark <:+: cs ++ commentMark.dropLast := by
  intro hmark
  have hparts : cs ++ commentMark.dropLast = cs ++ ['#'] ++ ['-'] := by
    rw [List.append_assoc]
    rfl
  rw [hparts, List.infix_concat_iff, List.infix_concat_iff] at hmark
  rcases hmark with ⟨front, hfront⟩ | ⟨front, hfront⟩ | hmark
  · -- the mark would end in a number sign and a dash
    have hdrop := congrArg (fun l => l.dropLast.getLast?) hfront
    rw [List.dropLast_concat, List.getLast?_concat,
      show front ++ commentMark = front ++ ['#', '-'] ++ ['-'] by
        rw [List.append_assoc]
        rfl,
      List.dropLast_concat, List.getLast?_append] at hdrop
    exact absurd (Option.some.inj hdrop) (by decide)
  · have hlast := congrArg List.getLast? hfront
    rw [List.getLast?_append, List.getLast?_concat] at hlast
    exact absurd (Option.some.inj hlast) (by decide)
  · exact h hmark

/-- **What is put behind a line does not count.** -/
theorem codeOf_extended {line line' : List Char} (h : Extended line line') :
    codeOf line' = codeOf line := by
  have hfree : ∀ {blanks : List Char}, (∀ c ∈ blanks, isBlank c = true ∧ isBreak c = false) →
      ∀ c ∈ blanks, isBlank c = true := fun h c hc => (h c hc).1
  by_cases hmark : commentMark <:+: line
  · -- the line has a comment, and all of what follows belongs to it
    cases h with
    | blanks blanks blank => rw [codeOf, before_append_of_infix hmark, codeOf]
    | comment blanks note blank unbroken =>
      rw [codeOf, List.append_assoc, List.append_assoc, before_append_of_infix hmark, codeOf]
  · cases h with
    | blanks blanks blank =>
      have hnone := mt (infix_append_blanks (hfree blank)).mp hmark
      rw [codeOf, before_eq_self hnone, trimEnd_append_of_blanks line (hfree blank), codeOf,
        before_eq_self hmark]
    | comment blanks note blank unbroken =>
      have hnone := mt (infix_append_blanks (hfree blank)).mp hmark
      rw [codeOf, before_append_mark (not_infix_append_part hnone),
        trimEnd_append_of_blanks line (hfree blank), codeOf, before_eq_self hmark]

theorem unbroken_of_all {cs : List Char} (h : (cs.all fun c => isBreak c == false) = true) :
    ∀ c ∈ cs, isBreak c = false :=
  fun c hc => eq_of_beq (List.all_eq_true.mp h c hc)

/-- No break comes with what is put behind a line. -/
theorem Extended.unbroken {line line' : List Char} (h : Extended line line')
    (hline : ∀ c ∈ line, isBreak c = false) : ∀ c ∈ line', isBreak c = false := by
  have hmark : ∀ c ∈ commentMark, isBreak c = false := unbroken_of_all (by decide)
  intro c hc
  cases h with
  | blanks blanks blank =>
    rcases List.mem_append.mp hc with hc | hc
    · exact hline c hc
    · exact (blank c hc).2
  | comment blanks note blank unbroken =>
    simp only [List.mem_append] at hc
    rcases hc with ((hc | hc) | hc) | hc
    · exact hline c hc
    · exact (blank c hc).2
    · exact hmark c hc
    · exact unbroken c hc

/-! ## Sources -/

/-- The extended lines of a source, joined in any way, have its lines and numbers. -/
theorem sourceLines_relaid {cs cs' : List Char} {lines : List (List Char)} {ends : List LineEnd}
    (hlines : List.Forall₂ Extended (splitLines cs) lines) (hjoined : Joined lines ends cs') :
    sourceLines cs' = sourceLines cs := by
  have hall : ∀ {olds news : List (List Char)}, List.Forall₂ Extended olds news →
      (∀ line ∈ olds, ∀ c ∈ line, isBreak c = false) →
      (∀ line ∈ news, ∀ c ∈ line, isBreak c = false) ∧ news.map codeOf = olds.map codeOf := by
    intro olds news h
    induction h with
    | nil => exact fun _ => ⟨List.forall_mem_nil _, rfl⟩
    | cons hfirst _ ih =>
      intro holds
      obtain ⟨hnews, hcodes⟩ := ih fun line hline => holds line (List.mem_cons_of_mem _ hline)
      refine ⟨List.forall_mem_cons.mpr
        ⟨hfirst.unbroken (holds _ List.mem_cons_self), hnews⟩, ?_⟩
      rw [List.map_cons, List.map_cons, codeOf_extended hfirst, hcodes]
  obtain ⟨hunbroken, hcodes⟩ := hall hlines (no_break_of_mem_splitLines cs)
  rw [sourceLines, splitLines_of_joined hjoined hunbroken, hcodes, ← sourceLines]

end Text

open Text

/-- **Layout does not change what a source means.**  Let each line of a source get blanks behind it,
    and perhaps a comment, and let the lines be joined by ends of any kind.  The result has the same
    document, down to the order of what it states and the numbers of the lines, or the same error,
    and the same warnings. -/
theorem parse_relaid {source source' : String} {lines : List (List Char)} {ends : List LineEnd}
    (hlines : List.Forall₂ Extended (splitLines source.toList) lines)
    (hjoined : Joined lines ends source'.toList) (identifier : String) :
    parse source' identifier = parse source identifier := by
  have hsource := sourceLines_relaid hlines hjoined
  rw [parse, parseInto_eq, hsource, ← parseInto_eq, ← parse]

/-- A sheet with lines that end in a part of the comment mark or have a comment. -/
def hashedSheet : String := "A:\n  .x = #\r\n  y #-\r  .z = 1 #-- note\n\n"

/-- The sheet with other ends of lines, and comments where marks could be mistaken. -/
def relaidSheet : String :=
  "A:#--\r  .x = ##--:\r\n  y #-#--\t\r\n  .z = 1 #-- note#--\u2003\r \n#-- end"

theorem parse_relaid_hashed :
    (∃ doc, (parse hashedSheet "sheet").2 = .ok doc) ∧
      parse relaidSheet "sheet" = parse hashedSheet "sheet" := by
  have hlines : splitLines hashedSheet.toList = ["A:".toList, "  .x = #".toList,
      "  y #-".toList, "  .z = 1 #-- note".toList, [], []] := by
    decide +kernel
  have hextended : List.Forall₂ Extended (splitLines hashedSheet.toList) ["A:#--".toList,
      "  .x = ##--:".toList, "  y #-#--\t".toList, "  .z = 1 #-- note#--\u2003".toList,
      " ".toList, "#-- end".toList] := by
    rw [hlines]
    have hnone := List.forall_mem_nil fun c => isBlank c = true ∧ isBreak c = false
    exact .cons (.comment [] [] hnone (List.forall_mem_nil _))
      (.cons (.comment [] [':'] hnone (unbroken_of_all (by decide)))
      (.cons (.comment [] ['\t'] hnone (unbroken_of_all (by decide)))
      (.cons (.comment [] ['\u2003'] hnone (unbroken_of_all (by decide)))
      (.cons (.blanks [' '] (List.forall_mem_singleton.mpr (by decide)))
      (.cons (.comment [] " end".toList hnone (unbroken_of_all (by decide))) .nil)))))
  have htext : relaidSheet.toList = "A:#--".toList ++ LineEnd.carriageReturn.chars ++
      ("  .x = ##--:".toList ++ LineEnd.both.chars ++ ("  y #-#--\t".toList ++ LineEnd.both.chars ++
      ("  .z = 1 #-- note#--\u2003".toList ++ LineEnd.carriageReturn.chars ++
      (" ".toList ++ LineEnd.lineFeed.chars ++ "#-- end".toList)))) := by
    decide +kernel
  have hjoined : Joined ["A:#--".toList, "  .x = ##--:".toList, "  y #-#--\t".toList,
      "  .z = 1 #-- note#--\u2003".toList, " ".toList, "#-- end".toList]
      [.carriageReturn, .both, .both, .carriageReturn, .lineFeed] relaidSheet.toList := by
    rw [htext]
    exact .more (.more (.more (.more (.more (.last _) _ .lineFeed (by decide))
      _ .carriageReturn (by decide)) _ .both (by decide)) _ .both (by decide))
      _ .carriageReturn (by decide)
  exact ⟨errorOf?_eq_none.mp (by decide +kernel), parse_relaid hextended hjoined "sheet"⟩

end ViewSheet
