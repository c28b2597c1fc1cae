/-
  Cutting: how the lines of a text, and the blocks of its lines, lie beside each other.

  1. **Lines**: two texts with a line feed between them have the lines of the one and then those of
     the other (`splitLines_append`), and what stands before a line has the lines before it
     (`splitLines_textBefore`).

  2. **Blocks**: at a header the lines above and the lines below are cut each on their own
     (`split_append_header`), lines without a header belong to what stands above them
     (`split_append_plain`), and lines of blanks can be left out before as well as after the cutting
     (`split_filled`).
-/
import ViewSheet.Sheet.Block

namespace ViewSheet

namespace Text

/-! ## Where a line ends -/

theorem splitLines_break {c : Char} {cs : List Char} (hc : isBreak c = true)
    (hnot : ∀ tail, c = '\r' → cs = '\n' :: tail → False) :
    splitLines (c :: cs) = [] :: splitLines cs := by
  rw [splitLines, if_pos hc]
  exact hnot

theorem splitLines_other {c : Char} (hc : isBreak c = false) (cs : List Char) :
    ∃ line rest, splitLines cs = line :: rest ∧ splitLines (c :: cs) = (c :: line) :: rest := by
  obtain ⟨line, rest, hcs⟩ := List.exists_cons_of_ne_nil (splitLines_ne_nil cs)
  refine ⟨line, rest, hcs, ?_⟩
  rw [splitLines, if_neg (by simp [hc]), hcs]
  rintro tail rfl -
  cases hc

/-! ## One text behind another -/

/-- A text that does not end in a carriage return keeps its lines when a line feed and another text
    follow. -/
theorem splitLines_append {cs : List Char} (h : cs.getLast? ≠ some '\r') (more : List Char) :
    splitLines (cs ++ '\n' :: more) = splitLines cs ++ splitLines more := by
  have htail : ∀ {c : Char} {cs : List Char}, (c :: cs).getLast? ≠ some '\r' →
      cs.getLast? ≠ some '\r' := by
    intro c cs hlast hcs
    rw [List.getLast?_cons, hcs] at hlast
    exact hlast rfl
  induction cs using splitLines.induct with
  | case1 => exact splitLines_break rfl fun _ hc => absurd hc (by decide)
  | case2 cs ih =>
    show [] :: splitLines (cs ++ '\n' :: more) = [] :: splitLines cs ++ splitLines more
    rw [ih (htail (htail h)), List.cons_append]
  | case3 c cs hnot hbreak ih =>
    have hall : ∀ tail, c = '\r' → cs ++ '\n' :: more = '\n' :: tail → False := by
      rintro tail rfl htail
      cases cs with
      | nil => exact h rfl
      | cons d ds =>
        rw [List.cons_append, List.cons.injEq] at htail
        exact hnot ds rfl (by rw [htail.1])
    rw [List.cons_append, splitLines_break hbreak hall, splitLines_break hbreak hnot, ih (htail h),
      List.cons_append]
  | case4 c cs hnot hbreak hnil ih => exact absurd hnil (splitLines_ne_nil cs)
  | case5 c cs hnot hbreak line rest hcs ih =>
    obtain ⟨line', rest', hall, hmore⟩ :=
      splitLines_other (Bool.eq_false_iff.mpr hbreak) (cs ++ '\n' :: more)
    obtain ⟨line'', rest'', hcs', hsplit⟩ := splitLines_other (Bool.eq_false_iff.mpr hbreak) cs
    rw [ih (htail h), hcs', List.cons_append, List.cons.injEq] at hall
    rw [List.cons_append, hmore, hsplit, List.cons_append, ← hall.1, ← hall.2]

/-! ## What stands before a line -/

/-- The text before the line with this index, which counts from 0.  A carriage return and the line
    feed behind it are one end of a line. -/
def textBefore : Nat → List Char → List Char
  | 0, _ => []
  | _ + 1, [] => []
  | n + 1, '\r' :: '\n' :: cs => '\r' :: '\n' :: textBefore n cs
  | n + 1, c :: cs => if isBreak c then c :: textBefore n cs else c :: textBefore (n + 1) cs

/-- A text goes on from what stands before one of its lines. -/
theorem exists_textBefore_append (n : Nat) (cs : List Char) :
    ∃ more, cs = textBefore n cs ++ more := by
  induction n, cs using textBefore.induct with
  | case1 cs => exact ⟨cs, by rw [textBefore, List.nil_append]⟩
  | case2 n => exact ⟨[], rfl⟩
  | case3 n cs ih =>
    obtain ⟨more, hmore⟩ := ih
    exact ⟨more, congrArg ('\r' :: '\n' :: ·) hmore⟩
  | case4 n c cs hnot hbreak ih =>
    obtain ⟨more, hmore⟩ := ih
    refine ⟨more, ?_⟩
    rw [textBefore, if_pos hbreak, List.cons_append, ← hmore]
    exact hnot
  | case5 n c cs hnot hbreak ih =>
    obtain ⟨more, hmore⟩ := ih
    refine ⟨more, ?_⟩
    rw [textBefore, if_neg hbreak, List.cons_append, ← hmore]
    exact hnot

/-- The text before a line has the lines before it, and the start of a line on which nothing
    stands. -/
theorem splitLines_textBefore {n : Nat} {cs : List Char} (h : n < (splitLines cs).length) :
    splitLines (textBefore n cs) = (splitLines cs).take n ++ [[]] := by
  induction n, cs using textBefore.induct with
  | case1 cs =>
    rw [textBefore]
    rfl
  | case2 n => cases h with | step h => cases h
  | case3 n cs ih =>
    show [] :: splitLines (textBefore n cs) = [] :: ((splitLines cs).take n ++ [[]])
    rw [ih (Nat.lt_of_succ_lt_succ h)]
  | case4 n c cs hnot hbreak ih =>
    have hfront : ∀ tail, c = '\r' → textBefore n cs = '\n' :: tail → False := by
      intro tail hc htail
      obtain ⟨more, hmore⟩ := exists_textBefore_append n cs
      exact hnot (tail ++ more) hc (hmore.trans (by rw [htail, List.cons_append]))
    rw [splitLines_break hbreak hnot] at h ⊢
    rw [textBefore, if_pos hbreak, splitLines_break hbreak hfront,
      ih (Nat.lt_of_succ_lt_succ h), List.take_succ_cons, List.cons_append]
    exact hnot
  | case5 n c cs hnot hbreak ih =>
    have hc := Bool.eq_false_iff.mpr hbreak
    obtain ⟨line, rest, hcs, hsplit⟩ := splitLines_other hc cs
    obtain ⟨line', rest', hfront, hsplit'⟩ := splitLines_other hc (textBefore (n + 1) cs)
    rw [hsplit] at h ⊢
    rw [hcs] at ih
    rw [ih h, List.take_succ_cons, List.cons_append, List.cons.injEq] at hfront
    rw [textBefore, if_neg hbreak, hsplit', List.take_succ_cons, List.cons_append, hfront.1,
      hfront.2]
    exact hnot

example : textBefore 2 ['a', '\r', '\n', 'b', '\r', 'c'] = ['a', '\r', '\n', 'b', '\r'] := by
  decide

/-! ## Numbers of lines -/

theorem map_text_numbered (n : Nat) (texts : List (List Char)) :
    (numbered n texts).map (·.text) = texts := by
  induction texts generalizing n with
  | nil => rfl
  | cons t rest ih => rw [numbered, List.map_cons, ih]

theorem text_mem_of_mem_numbered {n : Nat} {texts : List (List Char)} {l : Line}
    (h : l ∈ numbered n texts) : l.text ∈ texts := by
  have htext := List.mem_map_of_mem (f := (·.text)) h
  rwa [map_text_numbered] at htext

theorem numbered_append (n : Nat) (front back : List (List Char)) :
    numbered n (front ++ back) = numbered n front ++ numbered (n + front.length) back := by
  induction front generalizing n with
  | nil => rfl
  | cons t rest ih =>
    rw [List.cons_append, numbered, ih, numbered, List.cons_append, List.length_cons,
      Nat.add_right_comm, Nat.add_assoc n]

/-- Each part of numbered lines is numbered. -/
theorem numbered_eq_append {n : Nat} {texts : List (List Char)} {front back : List Line}
    (h : numbered n texts = front ++ back) :
    front = numbered n (front.map (·.text)) ∧
      back = numbered (n + front.length) (back.map (·.text)) := by
  have htexts : texts = front.map (·.text) ++ back.map (·.text) := by
    rw [← List.map_append, ← h, map_text_numbered]
  have hlength : front.length = (numbered n (front.map (·.text))).length := by
    have hmap := congrArg List.length (map_text_numbered n (front.map (·.text)))
    rw [List.length_map, List.length_map] at hmap
    exact hmap.symm
  rw [htexts, numbered_append, List.length_map] at h
  exact List.append_inj h.symm hlength

end Text

open Text

namespace Block

/-! ## Cutting at a header -/

theorem split_header {h : Line} (hh : isHeader h = true) (rest : List Line) :
    split (h :: rest) = ([], ⟨h, (split rest).1⟩ :: (split rest).2) := by
  rw [split]
  exact if_pos hh

theorem split_plain {l : Line} (hl : isHeader l = false) (rest : List Line) :
    split (l :: rest) = (l :: (split rest).1, (split rest).2) := by
  rw [split]
  exact if_neg (by simp [hl])

/-- The lines above a header are cut as if nothing came below. -/
theorem split_append_header (lines : List Line) {h : Line} (hh : isHeader h = true)
    (rest : List Line) :
    split (lines ++ h :: rest) = ((split lines).1, (split lines).2 ++ (split (h :: rest)).2) := by
  induction lines with
  | nil => rw [List.nil_append, split_header hh, split, List.nil_append]
  | cons l lines ih =>
    cases hl : isHeader l with
    | true => rw [List.cons_append, split_header hl, split_header hl, ih, List.cons_append]
    | false => rw [List.cons_append, split_plain hl, split_plain hl, ih]

/-- Lines without a header go to what stands above them. -/
theorem split_append_plain {lines : List Line} (h : ∀ l ∈ lines, isHeader l = false)
    (rest : List Line) : split (lines ++ rest) = (lines ++ (split rest).1, (split rest).2) := by
  induction lines with
  | nil => rfl
  | cons l lines ih =>
    rw [List.cons_append, split_plain (h l List.mem_cons_self),
      ih fun k hk => h k (List.mem_cons_of_mem l hk), List.cons_append]

/-- Lines that are put together from a lead and blocks are cut into them. -/
theorem split_flatMap {lead : List Line} {blocks : List Block}
    (hlead : ∀ l ∈ lead, isHeader l = false)
    (hblocks : ∀ b ∈ blocks, isHeader b.header = true ∧ ∀ l ∈ b.body, isHeader l = false) :
    split (lead ++ blocks.flatMap fun b => b.header :: b.body) = (lead, blocks) := by
  have hsplit : split (blocks.flatMap fun b => b.header :: b.body) = ([], blocks) := by
    induction blocks with
    | nil => rfl
    | cons b blocks ih =>
      obtain ⟨hheader, hbody⟩ := hblocks b List.mem_cons_self
      rw [List.flatMap_cons, List.cons_append, split_header hheader, split_append_plain hbody,
        ih fun c hc => hblocks c (List.mem_cons_of_mem b hc), List.append_nil]
  rw [split_append_plain hlead, hsplit, List.append_nil]

/-! ## Lines of blanks -/

/-- A block without its lines of blanks. -/
def filled (b : Block) : Block := ⟨b.header, b.statements⟩

/-- The colon of a header is no blank. -/
theorem isEmpty_of_isHeader {h : Line} (hh : isHeader h = true) : h.isEmpty = false := by
  have hlast : h.text.getLast? = some ':' := eq_of_beq hh
  rw [Line.isEmpty, List.all_eq_false]
  exact ⟨':', List.mem_of_getLast? hlast, by decide⟩

/-- Lines of blanks can be left out before the cutting or after it. -/
theorem split_filled (lines : List Line) :
    split (lines.filter (!·.isEmpty)) =
      ((split lines).1.filter (!·.isEmpty), (split lines).2.map filled) := by
  induction lines with
  | nil => rfl
  | cons l rest ih =>
    cases hl : isHeader l with
    | true =>
      rw [List.filter_cons, isEmpty_of_isHeader hl, split_header hl, Bool.not_false, if_pos rfl,
        split_header hl, ih]
      rfl
    | false =>
      rw [List.filter_cons, split_plain hl, List.filter_cons]
      cases l.isEmpty with
      | true => exact ih
      | false =>
        rw [Bool.not_false, if_pos rfl, split_plain hl, ih]
        rfl

end Block

end ViewSheet
