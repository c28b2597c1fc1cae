/-
  Stopping: what a parse that fails has done to the document.

  1. **Program**: blocks are stated one after the other, and each is read as a whole before any of
     its names is stated.

  2. **Specification**: the failing block is the one that holds the line of the error; its header is
     the last at or above that line.  `textBefore` is the source up to the header.

  3. **Result** (`parseInto_stops`): that much of the source parses, and leaves the same document.
     So a failure states nothing of its block, under none of the names.  If there is no header up to
     the line, the document is as it was.
-/
import ViewSheet.Proofs.Grammar

namespace ViewSheet

open Text Grammar

/-- A failed parse of lines leaves what the lines above the failing block leave. -/
theorem parseLines_stops {doc : Document} {lines : List Line} {e : Error}
    (h : (parseLines doc lines).failure = some e) :
    ∃ before l after, lines = before ++ l :: after ∧ e.line? = some l.number ∧
      (((∀ k ∈ before ++ [l], isHeader k = false) ∧ (parseLines doc lines).document = doc) ∨
        ∃ above header body, before ++ [l] = above ++ header :: body ∧ isHeader header = true ∧
          (∀ k ∈ body, isHeader k = false) ∧ (parseLines doc above).failure = none ∧
          (parseLines doc above).document = (parseLines doc lines).document) := by
  have hlines := Block.flatten_split lines
  have hlead : ∀ k ∈ (Block.split lines).1, isHeader k = false := fun _ =>
    Block.not_isHeader_of_mem_lead
  rw [failure_parseLines] at h
  rcases Option.or_eq_some_iff.mp h with hrefused | ⟨hfull, hblocks⟩
  · obtain ⟨before, l, after, hsplit, detail, notes, -, rfl⟩ := blamed_of_leadRefusal hlead hrefused
    rw [hsplit, List.append_assoc, List.cons_append] at hlines
    refine ⟨before, l, _, hlines.symm, rfl, Or.inl ⟨fun k hk => hlead k ?_, ?_⟩⟩
    · rw [hsplit, List.append_cons]
      exact List.mem_append_left after hk
    · rw [parseLines, hrefused]
  · obtain ⟨done, b, rest, hsplit, hb, hdone⟩ := List.findSome?_eq_some_iff.mp hblocks
    have hshape : ∀ c ∈ done ++ b :: rest,
        isHeader c.header = true ∧ ∀ k ∈ c.body, isHeader k = false := by
      intro c hc
      rw [← hsplit] at hc
      exact ⟨Block.isHeader_of_mem_split hc, fun _ => Block.not_isHeader_of_mem_body hc⟩
    obtain ⟨hheader, hbody⟩ := hshape b (by simp)
    obtain ⟨seen, l, after, hblock, detail, notes, -, rfl⟩ := blamed_of_refusal
      ((Block.split lines).1 ++ done.flatMap fun b => b.header :: b.body) hheader hbody hb
    rw [hsplit, List.flatMap_append, List.flatMap_cons, hblock] at hlines
    refine ⟨(Block.split lines).1 ++ (done.flatMap fun b => b.header :: b.body) ++ seen, l,
      after ++ rest.flatMap fun b => b.header :: b.body, hlines.symm.trans ?_, rfl, Or.inr ?_⟩
    · simp only [List.append_assoc, List.cons_append]
    -- the lines from the header of the block down to the one that is blamed
    obtain ⟨body, hseen, hplain⟩ : ∃ body, seen ++ [l] = b.header :: body ∧
        ∀ k ∈ body, isHeader k = false := by
      cases seen with
      | nil => exact ⟨[], by rw [(List.cons.inj hblock).1]; rfl, by simp⟩
      | cons k ks =>
        obtain ⟨hk, hks⟩ : b.header = k ∧ b.body = ks ++ l :: after := List.cons.inj hblock
        refine ⟨ks ++ [l], by rw [hk, List.cons_append], fun m hm => hbody m ?_⟩
        rw [hks, List.append_cons]
        exact List.mem_append_left after hm
    have habove := Block.split_flatMap hlead fun c hc => hshape c (List.mem_append_left _ hc)
    refine ⟨_, b.header, body, by rw [List.append_assoc, hseen], hheader, hplain, ?_⟩
    rw [parseLines, habove, hfull, parseLines, hfull, hsplit]
    exact ⟨(applyBlocks_append hdone doc []).1, (applyBlocks_stops hdone hb doc rest).2.symm⟩

/-- The text before a line parses like the lines above it. -/
theorem parseInto_textBefore (doc : Document) {source : String} {above below : List Line}
    (h : sourceLines source.toList = above ++ below) (hbelow : below ≠ []) :
    parseInto doc (String.ofList (textBefore above.length source.toList)) =
      parseLines doc above := by
  have htexts := map_text_numbered 1 ((splitLines source.toList).map codeOf)
  rw [← sourceLines, h, List.map_append] at htexts
  have hlength : above.length < (splitLines source.toList).length := by
    have hall := congrArg List.length htexts
    rw [List.length_append, List.length_map, List.length_map, List.length_map] at hall
    have := List.length_pos_iff.mpr hbelow
    omega
  have htake : ((splitLines source.toList).take above.length).map codeOf =
      above.map (·.text) := by
    rw [List.map_take, ← htexts, List.take_left']
    exact List.length_map _
  rw [parseInto_eq, String.toList_ofList, sourceLines, splitLines_textBefore hlength,
    List.map_append, htake, numbered_append, ← (numbered_eq_append h).1]
  -- nothing stands on the last line
  have hlast : ∀ n, (numbered n ([[]].map codeOf)).filter (!·.isEmpty) = [] := fun n => rfl
  rw [← parseLines_filled, List.filter_append, hlast, List.append_nil, parseLines_filled]

/-- **A failed parse changes nothing from the failing block on.**  The line `t` of the error is
    below the lines `before`.  If there is no header up to it, the document is as it was.  Else the
    last header up to it is that of the failing block, and what the parse has left is what a parse
    of the source up to that header leaves, which succeeds. -/
theorem parseInto_stops {doc : Document} {source : String} {e : Error}
    (h : (parseInto doc source).failure = some e) :
    ∃ before t after, (splitLines source.toList).map codeOf = before ++ t :: after ∧
      e.line? = some (before.length + 1) ∧
      (((∀ u ∈ before ++ [t], ¬ Header u) ∧ (parseInto doc source).document = doc) ∨
        ∃ above header body, before ++ [t] = above ++ header :: body ∧ Header header ∧
          (∀ u ∈ body, ¬ Header u) ∧
          let front := String.ofList (textBefore above.length source.toList)
          (parseInto doc front).failure = none ∧
          (parseInto doc front).document = (parseInto doc source).document) := by
  rw [parseInto_eq] at h
  obtain ⟨before, l, after, hsplit, hline, hcases⟩ := parseLines_stops h
  have htexts := map_text_numbered 1 ((splitLines source.toList).map codeOf)
  rw [← sourceLines, hsplit, List.map_append, List.map_cons] at htexts
  have hnumber : l.number = before.length + 1 := by
    have hl := (numbered_eq_append hsplit).2
    rw [List.map_cons, numbered] at hl
    rw [congrArg Line.number (List.cons.inj hl).1, Nat.add_comm]
  refine ⟨before.map (·.text), l.text, after.map (·.text), htexts.symm, ?_, ?_⟩
  · rw [hline, hnumber, List.length_map]
  · rcases hcases with ⟨hnone, hdoc⟩ | ⟨above, header, body, hblock, hheader, hbody, hok, hdoc⟩
    · refine Or.inl ⟨?_, by rw [parseInto_eq, hdoc]⟩
      rw [← List.map_singleton, ← List.map_append]
      exact forall_not_header_iff.mpr hnone
    · have hfound : sourceLines source.toList = above ++ header :: (body ++ after) := by
        rw [hsplit, List.append_cons, hblock, List.append_assoc, List.cons_append]
      have hfront := parseInto_textBefore doc hfound (by simp)
      refine Or.inr ⟨above.map (·.text), header.text, body.map (·.text), ?_,
        isHeader_iff.mp hheader, forall_not_header_iff.mpr hbody, ?_⟩
      · rw [← List.map_singleton, ← List.map_append, hblock, List.map_append, List.map_cons]
      · dsimp only
        rw [List.length_map, hfront, hok, hdoc, ← parseInto_eq]
        exact ⟨rfl, rfl⟩

/-- A sheet whose second header lists a name of the first, and has a malformed line below it. -/
def sharedSheet : String := "A:\n  .x = 1\nA, B:\n  .x = 2\n  .y 3\n"

/-- Nothing is stated under `A` and `B` together. -/
theorem parseInto_stops_shared :
    (parseInto (.empty "sheet") sharedSheet).failure =
      some ⟨.unrecognized "Expected a property setter statement, saw '.y 3'" 5,
        ["while parsing declaration 'A'"]⟩ ∧
    ∃ n, let front := String.ofList (textBefore n sharedSheet.toList)
      (parseInto (.empty "sheet") front).failure = none ∧
      (parseInto (.empty "sheet") front).document =
        (parseInto (.empty "sheet") sharedSheet).document := by
  have hfailure : (parseInto (.empty "sheet") sharedSheet).failure =
      some ⟨.unrecognized "Expected a property setter statement, saw '.y 3'" 5,
        ["while parsing declaration 'A'"]⟩ := by
    decide +kernel
  have hstated : (parseInto (.empty "sheet") sharedSheet).document ≠ .empty "sheet" := by
    decide +kernel
  refine ⟨hfailure, ?_⟩
  obtain ⟨before, t, after, -, -, ⟨-, hdoc⟩ | ⟨above, header, body, -, -, -, hfront⟩⟩ :=
    parseInto_stops hfailure
  · exact absurd hdoc hstated
  · exact ⟨above.length, hfront⟩

end ViewSheet
