/-
  Joining: two sources with a line feed between them.

  1. **Program**: a document is added to by parsing one source after the other, or by parsing the
     two as one source.

  2. **Specification**: the two come to the same if the second source starts with a header.  Only
     the numbers of its lines differ: as part of the whole they count the lines of the first too.

  3. **The crux**: which properties have a number of the second source.  It is those that the second
     source alone would state; the others are as the document had them (`Laid`).

  4. **Result** (`parseInto_join`).
-/
import ViewSheet.Proofs.Renumbering

namespace ViewSheet

open Text

/-! ## Lines below lines -/

/-- Lines that start with a header, blanks apart, are parsed into what the lines above them have
    left. -/
theorem parseLines_append {doc : Document} {lines : List Line}
    (h : (parseLines doc lines).failure = none) {more : List Line}
    (hmore : ∀ l, more.find? (!·.isEmpty) = some l → isHeader l = true) :
    parseLines doc (lines ++ more) =
      let above := parseLines doc lines
      let below := parseLines above.document more
      { below with events := above.events ++ below.events } := by
  dsimp only
  rw [← parseLines_filled doc (lines ++ more), List.filter_append, ← parseLines_filled _ more]
  rw [← parseLines_filled] at h
  rw [← parseLines_filled doc lines]
  cases hfull : more.filter (!·.isEmpty) with
  | nil =>
    have hnothing : ∀ doc, parseLines doc [] = ⟨doc, none, []⟩ := fun _ => rfl
    rw [List.append_nil, hnothing]
    dsimp only
    rw [List.append_nil, ← h]
  | cons header rest =>
    have hheader := hmore header (by rw [← List.head?_filter, hfull]; rfl)
    generalize lines.filter (!·.isEmpty) = above at h ⊢
    rw [failure_parseLines, linesRefusal?, Option.or_eq_none_iff, List.findSome?_eq_none_iff] at h
    obtain ⟨hlead, hblocks⟩ := h
    have hbelow : ∀ doc, parseLines doc (header :: rest) =
        applyBlocks doc (Block.split (header :: rest)).2 := by
      intro doc
      rw [parseLines, Block.split_header hheader]
      rfl
    have habove : parseLines doc above = applyBlocks doc (Block.split above).2 := by
      rw [parseLines, hlead]
    rw [hbelow, habove, parseLines, Block.split_append_header above hheader, hlead]
    exact (applyBlocks_append hblocks doc _).2

/-! ## What is stated over a document -/

/-- The text of a property and its line. -/
def Document.property? (doc : Document) (name key : String) : Option PropertyText :=
  (doc.get? name).bind (·.property? key)

/-- The declarations of `doc` have the properties that are stated, and else those of `base`. -/
def Laid (base stated doc : Document) : Prop :=
  ∀ name key, doc.property? name key = (stated.property? name key).or (base.property? name key)

theorem Document.property?_getD (doc : Document) (name key : String) :
    (doc.getD name).property? key = doc.property? name key := by
  rw [getD, Document.property?]
  cases doc.get? name <;> rfl

theorem Document.property?_amend (doc : Document) (name : String)
    (change : Declaration → List Event × Declaration) (other key : String) :
    (doc.amend name change).2.property? other key =
      if other = name then (change (doc.getD name)).2.property? key
      else doc.property? other key := by
  split
  · rename_i h
    rw [h, Document.property?, get?_amend_self, Option.bind_some]
  · rename_i h
    rw [Document.property?, get?_amend_of_ne doc change h, ← Document.property?]

theorem Declaration.property?_setProperty (d : Declaration) (key value : String) (line : Nat)
    (other : String) :
    (d.setProperty key value line).2.property? other =
      if other = key then some ⟨value, line⟩ else d.property? other := by
  split
  · rename_i h
    rw [h, property?_setProperty_self]
  · rename_i h
    rw [property?_setProperty_of_ne d value line h]

/-- What is laid over a declaration stays so when the same body is stated. -/
theorem Body.property?_apply (body : Body) {base stated d : Declaration}
    (h : ∀ key, d.property? key = (stated.property? key).or (base.property? key)) (key : String) :
    (body.apply d).2.property? key =
      ((body.apply stated).2.property? key).or (base.property? key) := by
  cases body with
  | hierarchy tree => exact h key
  | setters assignments =>
    induction assignments generalizing d stated with
    | nil => exact h key
    | cons a rest ih =>
      have hstep : ∀ other, (a.apply d).2.property? other =
          ((a.apply stated).2.property? other).or (base.property? other) := by
        intro other
        rw [Assignment.apply, Declaration.property?_setProperty, h other, Assignment.apply,
          Declaration.property?_setProperty]
        split <;> rfl
      exact ih hstep

namespace Laid

variable {base stated doc : Document}

theorem refl (base : Document) (identifier : String) : Laid base (.empty identifier) base :=
  fun _ _ => rfl

theorem stateAll (h : Laid base stated doc) (reading : List Event) (body : Body)
    (names : List String) :
    Laid base (Block.stateAll reading body stated names).2
      (Block.stateAll reading body doc names).2 := by
  induction names generalizing stated doc with
  | nil => exact h
  | cons name rest ih =>
    have hstep : Laid base (stated.amend name body.apply).2 (doc.amend name body.apply).2 := by
      intro other key
      rw [Document.property?_amend, Document.property?_amend]
      split
      · rename_i hname
        rw [hname, ← Document.property?_getD base]
        refine body.property?_apply (fun key => ?_) key
        rw [Document.property?_getD, Document.property?_getD, Document.property?_getD]
        exact h name key
      · exact h other key
    exact ih hstep

theorem applyBlocks (h : Laid base stated doc) (blocks : List Block) :
    Laid base (ViewSheet.applyBlocks stated blocks).document
      (ViewSheet.applyBlocks doc blocks).document := by
  induction blocks generalizing stated doc with
  | nil => exact h
  | cons b rest ih =>
    cases hb : b.refusal? with
    | some e =>
      have hstops : ∀ doc, (ViewSheet.applyBlocks doc (b :: rest)).document = doc := fun doc =>
        (applyBlocks_stops (List.forall_mem_nil _) hb doc rest).2
      rw [hstops, hstops]
      exact h
    | none =>
      rcases Block.apply_of_fit hb with hsame | ⟨events, body, names, hall⟩
      · rw [document_applyBlocks_cons (hsame stated), document_applyBlocks_cons (hsame doc)]
        exact ih h
      · rw [document_applyBlocks_cons (hall stated), document_applyBlocks_cons (hall doc)]
        exact ih (h.stateAll events body names)

theorem parseLines (h : Laid base stated doc) (lines : List Line) :
    Laid base (ViewSheet.parseLines stated lines).document
      (ViewSheet.parseLines doc lines).document := by
  rw [ViewSheet.parseLines, ViewSheet.parseLines]
  cases leadRefusal? (Block.split lines).1 with
  | some e => exact h
  | none => exact h.applyBlocks _

end Laid

/-! ## Two sources -/

theorem numbered_renumber (n k : Nat) (texts : List (List Char)) :
    (numbered n texts).map (·.renumber (· + k)) = numbered (n + k) texts := by
  induction texts generalizing n with
  | nil => rfl
  | cons t rest ih =>
    rw [numbered, List.map_cons, ih, numbered, Nat.add_right_comm]
    rfl

/-- The lines of two texts with a line feed between them. -/
theorem sourceLines_append {first : List Char} (h : first.getLast? ≠ some '\r')
    (second : List Char) :
    sourceLines (first ++ '\n' :: second) =
      sourceLines first ++
        (sourceLines second).map (·.renumber (· + (splitLines first).length)) := by
  rw [sourceLines, splitLines_append h, List.map_append, numbered_append, List.length_map,
    sourceLines, sourceLines, numbered_renumber]

theorem Document.property?_renumber (f : Nat → Nat) (doc : Document) (name key : String) :
    (doc.renumber f).property? name key = (doc.property? name key).map (·.renumber f) := by
  rw [property?, property?, get?, renumber, NameMap.get?_map, ← get?]
  cases doc.get? name with
  | none => rfl
  | some d => exact NameMap.get?_map _ d.properties key

/-- **Parsing is compositional over blocks.**  Let a source parse that does not end in a carriage
    return, and let another start with a header, blanks and comments apart.  To parse the two with a
    line feed between them has the outcome of parsing the other into what the first has left, and
    leaves the same document, but for the numbers of lines.  The lines of the other, where an error
    is blamed on one and where one is stored with a property, count those of the first too, and so
    they do in the warnings.  These properties are what the other source alone states; the rest are
    as the first has left them. -/
theorem parseInto_join {doc : Document} {first second : String}
    (hfirst : (parseInto doc first).failure = none) (hreturn : first.toList.getLast? ≠ some '\r')
    (hheader : ∀ t, ((splitLines second.toList).map codeOf).find? (fun t => !t.all isBlank) =
      some t → t.getLast? = some ':') :
    let count := (splitLines first.toList).length
    let left := (parseInto doc first).document
    let joint := parseInto doc (first ++ "\n" ++ second)
    let after := parseInto left second
    let stated := (parseInto (.empty doc.identifier) second).document
    joint.failure = after.failure.map (·.renumber (· + count)) ∧
    joint.events = (parseInto doc first).events ++ (parseLines left
      ((sourceLines second.toList).map (·.renumber (· + count)))).events ∧
    joint.document.renumber (fun _ => 0) = after.document.renumber (fun _ => 0) ∧
    ∀ name key,
      after.document.property? name key =
        (stated.property? name key).or (left.property? name key) ∧
      joint.document.property? name key =
        ((stated.property? name key).map (·.renumber (· + count))).or
          (left.property? name key) := by
  intro count left joint after stated
  have hlines : (first ++ "\n" ++ second).toList = first.toList ++ '\n' :: second.toList := by
    rw [String.toList_append, String.toList_append, List.append_assoc]
    rfl
  -- a header is one under any number
  have hbelow : ∀ l, ((sourceLines second.toList).map (·.renumber (· + count))).find?
      (!·.isEmpty) = some l → isHeader l = true := by
    intro l hl
    rw [List.find?_map, Option.map_eq_some_iff] at hl
    obtain ⟨k, hk, rfl⟩ := hl
    have htext := hheader k.text (by
      rw [← map_text_numbered 1 ((splitLines second.toList).map codeOf), ← sourceLines,
        List.find?_map]
      exact Option.map_eq_some_iff.mpr ⟨k, hk, rfl⟩)
    exact beq_iff_eq.mpr htext
  have hleft : parseLines doc (sourceLines first.toList) = parseInto doc first :=
    (parseInto_eq doc first).symm
  have hjoint : joint =
      let below := parseLines left ((sourceLines second.toList).map (·.renumber (· + count)))
      { below with events := (parseInto doc first).events ++ below.events } := by
    have hnone : (parseLines doc (sourceLines first.toList)).failure = none := hleft ▸ hfirst
    have happend := parseLines_append hnone hbelow
    rw [← sourceLines_append hreturn, ← hlines, ← parseInto_eq, hleft] at happend
    exact happend
  have hafter : after = parseLines left (sourceLines second.toList) := parseInto_eq left second
  have hstated : stated =
      (parseLines (.empty doc.identifier) (sourceLines second.toList)).document :=
    congrArg Parsed.document (parseInto_eq _ second)
  refine ⟨?_, ?_, ?_, fun name key => ⟨?_, ?_⟩⟩
  · rw [hjoint, hafter, ← (parseLines_renumber (· + count) _ left).2, failure_parseLines,
      failure_parseLines]
  · rw [hjoint]
  · rw [hjoint, hafter, ← (parseLines_renumber (fun _ => 0) _ left).1,
      ← (parseLines_renumber (fun _ => 0) _ left).1, List.map_map]
    rfl
  · rw [hafter, hstated]
    exact (Laid.refl left doc.identifier).parseLines _ name key
  · have hempty := (parseLines_renumber (· + count) (sourceLines second.toList)
      (.empty doc.identifier)).1
    rw [hjoint, hstated, ← Document.property?_renumber, ← hempty]
    exact (Laid.refl left doc.identifier).parseLines _ name key

/-- A sheet that states two properties. -/
def upperSheet : String := "A:\n  .x = 1\n  .y = 2"

/-- A sheet that states one of them anew, and then is malformed. -/
def lowerSheet : String := "\nA:\n  .x = 3\nB:\n  C D"

/-- The line of the property that is stated anew is its line in the whole, and so is that of the
    error; the other property keeps its line. -/
theorem parseInto_join_overridden :
    (parseInto (.empty "sheet") upperSheet).failure = none ∧
    let left := (parseInto (.empty "sheet") upperSheet).document
    let joint := parseInto (.empty "sheet") (upperSheet ++ "\n" ++ lowerSheet)
    joint.failure = (parseInto left lowerSheet).failure.map (·.renumber (· + 3)) ∧
    (joint.failure.bind (·.line?)) = some 8 ∧
    joint.document.property? "A" "x" = some ⟨"3", 6⟩ ∧
    joint.document.property? "A" "y" = some ⟨"2", 3⟩ := by
  have hfirst : (parseInto (.empty "sheet") upperSheet).failure = none := by decide +kernel
  have hreturn : upperSheet.toList.getLast? ≠ some '\r' := by decide +kernel
  have hheader : ((splitLines lowerSheet.toList).map codeOf).find? (fun t => !t.all isBlank) =
      some ['A', ':'] := by decide +kernel
  have hcount : (splitLines upperSheet.toList).length = 3 := by decide +kernel
  obtain ⟨hfailure, -, -, hproperties⟩ := parseInto_join hfirst hreturn fun t ht => by
    rw [hheader, Option.some.injEq] at ht
    rw [← ht]
    rfl
  rw [hcount] at hfailure
  refine ⟨hfirst, hfailure, ?_, ?_, ?_⟩
  · rw [hfailure]
    decide +kernel
  · rw [(hproperties "A" "x").2]
    decide +kernel
  · rw [(hproperties "A" "y").2]
    decide +kernel

end ViewSheet
