/-
  Refusals: why a block is not stated.

  1. **Program**: parsing states block after block and stops at the first that is malformed.

  2. **Specification**: `Block.refusal?` is the error of a block on its own.  It is about the names
     in the header, or about the first line of the body that does not fit the shape which the body
     starts with.  No document comes into it (`errorOf?_apply`).

  3. **Result**: parsing fails with the refusal of the first refused block (`failure_parseLines`),
     and leaves what the blocks before it have stated (`applyBlocks_stops`).
-/
import ViewSheet.Proofs.Cutting

namespace ViewSheet

open Text

/-! ## The error of an outcome -/

/-- The error, if that is the outcome. -/
def errorOf? {α : Type} : Except Error α → Option Error
  | .ok _ => none
  | .error e => some e

@[simp] theorem errorOf?_map {α β : Type} (f : α → β) (r : Except Error α) :
    errorOf? (r.map f) = errorOf? r := by
  cases r <;> rfl

theorem errorOf?_eq_some {α : Type} {r : Except Error α} {e : Error} :
    errorOf? r = some e ↔ r = .error e := by
  cases r <;> simp [errorOf?]

theorem errorOf?_eq_none {α : Type} {r : Except Error α} :
    errorOf? r = none ↔ ∃ a, r = .ok a := by
  cases r <;> simp [errorOf?]

/-! ## Lines that do not fit -/

namespace Assignment

/-- What is wrong with a line of setters: it states a property, but not in the form. -/
def refusal? (l : Line) : Option Error := if opens l then errorOf? (read l) else none

theorem errorOf?_readAll_some (a : Assignment) (lines : List Line) :
    errorOf? (readAll (some a) lines) = lines.findSome? refusal? := by
  induction lines generalizing a with
  | nil => rfl
  | cons l rest ih =>
    rw [readAll, List.findSome?_cons, refusal?]
    split
    · cases read l with
      | error e => rfl
      | ok b =>
        rw [errorOf?_map]
        exact ih b
    · exact ih _

theorem errorOf?_readAll_none {first : Line} (h : opens first = true) (rest : List Line) :
    errorOf? (readAll none (first :: rest)) = (first :: rest).findSome? refusal? := by
  rw [readAll, List.findSome?_cons, refusal?, if_pos h, if_pos h]
  cases read first with
  | error e => rfl
  | ok a =>
    rw [errorOf?_map]
    exact errorOf?_readAll_some a rest

end Assignment

namespace Growth

/-- The complaint about a line with more than one name. -/
def crowded (l : Line) : Error :=
  .unrecognized s!"Expected a single view name, saw '{String.ofList (trim l.text)}'" l.number

/-- What is wrong with a line of a tree: more than one name stands on it. -/
def refusal? (l : Line) : Option Error :=
  if (trim l.text).any isBlank then some (crowded l) else none

theorem errorOf?_readAll (g : Growth) (lines : List Line) :
    errorOf? (g.readAll lines).2 = lines.findSome? refusal? := by
  induction lines generalizing g with
  | nil => rfl
  | cons l rest ih =>
    rw [readAll, List.findSome?_cons, refusal?]
    dsimp only
    split
    · rename_i hempty
      rw [List.isEmpty_iff.mp hempty]
      exact ih g
    · split
      · rfl
      · exact ih _

end Growth

/-- What is wrong with a line of a body that starts with `first`. -/
def Body.refusal? (first l : Line) : Option Error :=
  if Assignment.opens first then Assignment.refusal? l else Growth.refusal? l

theorem Body.read_cons (first : Line) (rest : List Line) :
    Body.read (first :: rest) =
      if Assignment.opens first then ([], (Assignment.readAll none (first :: rest)).map .setters)
      else ((Growth.start.readAll (first :: rest)).1,
        (Growth.start.readAll (first :: rest)).2.map .hierarchy) := rfl

theorem Body.errorOf?_read (first : Line) (rest : List Line) :
    errorOf? (Body.read (first :: rest)).2 = (first :: rest).findSome? (Body.refusal? first) := by
  have hshape : Body.refusal? first =
      if Assignment.opens first then Assignment.refusal? else Growth.refusal? := by
    funext l
    rw [Body.refusal?]
    split <;> rfl
  rw [Body.read_cons, hshape]
  split
  · rename_i h
    rw [errorOf?_map]
    exact Assignment.errorOf?_readAll_none h rest
  · rw [errorOf?_map]
    exact Growth.errorOf?_readAll .start _

/-! ## Blocks that are refused -/

namespace Block

/-- The name that errors in a body are blamed on. -/
def firstName (b : Block) : String :=
  String.ofList (trim ((pieces ',' b.header.text.dropLast).headD []))

/-- What is wrong with a line of a block whose body starts with `first`. -/
def lineRefusal? (b : Block) (first l : Line) : Option Error :=
  (Body.refusal? first l).map (·.during ("while parsing declaration '" ++ b.firstName ++ "'"))

/-- What is wrong with a block: its names, or else the first line of the body that does not fit. -/
def refusal? (b : Block) : Option Error :=
  match errorOf? b.names with
  | some e => some e
  | none => match b.statements with
    | [] => none
    | first :: rest => (first :: rest).findSome? (b.lineRefusal? first)

theorem headD_names {b : Block} {names : List String} (h : b.names = .ok names) :
    names.headD "" = b.firstName := by
  rw [Block.names] at h
  split at h
  · cases h
  · rw [Except.ok.injEq] at h
    rw [← h, firstName]
    obtain ⟨p, ps, hp⟩ := List.exists_cons_of_ne_nil (pieces_ne_nil ',' b.header.text.dropLast)
    rw [hp]
    rfl

/-- Whether a block is refused, and why, does not depend on the document. -/
theorem errorOf?_apply (b : Block) (doc : Document) : errorOf? (b.apply doc).2 = b.refusal? := by
  rw [apply, refusal?]
  cases hnames : b.names with
  | error e => rfl
  | ok names =>
    cases hbody : b.statements with
    | nil => rfl
    | cons first rest =>
      have hread := Body.errorOf?_read first rest
      have hlines : (first :: rest).findSome? (b.lineRefusal? first) =
          ((first :: rest).findSome? (Body.refusal? first)).map
            (·.during ("while parsing declaration '" ++ b.firstName ++ "'")) :=
        List.map_findSome?.symm
      dsimp only [errorOf?]
      rw [hlines, ← hread, headD_names hnames]
      rcases Body.read (first :: rest) with ⟨events, r⟩
      cases r <;> rfl

/-- A block that is not refused states the same in every document. -/
theorem apply_of_fit {b : Block} (h : b.refusal? = none) :
    (∀ doc, (b.apply doc).2 = .ok doc) ∨
      ∃ events body names, ∀ doc, (b.apply doc).2 = .ok (stateAll events body doc names).2 := by
  have hfit : ∀ doc, errorOf? (b.apply doc).2 = none := fun doc => (b.errorOf?_apply doc).trans h
  cases hnames : b.names with
  | error e =>
    have hnone := hfit (.empty "")
    rw [apply, hnames] at hnone
    cases hnone
  | ok names =>
    cases hempty : b.statements.isEmpty with
    | true =>
      refine Or.inl fun doc => ?_
      rw [apply, hnames, hempty]
      rfl
    | false =>
      rcases hread : Body.read b.statements with ⟨events, r⟩
      cases r with
      | error e =>
        have hnone := hfit (.empty "")
        rw [apply, hnames, hempty, hread] at hnone
        cases hnone
      | ok body =>
        refine Or.inr ⟨events, body, names, fun doc => ?_⟩
        rw [apply, hnames, hempty, hread]
        rfl

end Block

/-! ## Where parsing stops -/

theorem document_applyBlocks_cons {b : Block} {doc doc' : Document} (h : (b.apply doc).2 = .ok doc')
    (rest : List Block) :
    (applyBlocks doc (b :: rest)).document = (applyBlocks doc' rest).document := by
  have hsplit : b.apply doc = ((b.apply doc).1, .ok doc') := Prod.ext rfl h
  rw [applyBlocks, hsplit]

/-- Blocks that are not refused are stated, and the others go on from there. -/
theorem applyBlocks_append {done : List Block} (h : ∀ b ∈ done, b.refusal? = none)
    (doc : Document) (rest : List Block) :
    (applyBlocks doc done).failure = none ∧
    applyBlocks doc (done ++ rest) =
      let further := applyBlocks (applyBlocks doc done).document rest
      { further with events := (applyBlocks doc done).events ++ further.events } := by
  induction done generalizing doc with
  | nil => exact ⟨rfl, rfl⟩
  | cons b done ih =>
    have hb := h b List.mem_cons_self
    rw [← b.errorOf?_apply doc] at hb
    obtain ⟨doc', hdoc'⟩ := errorOf?_eq_none.mp hb
    have hsplit : b.apply doc = ((b.apply doc).1, .ok doc') := Prod.ext rfl hdoc'
    obtain ⟨hnone, happend⟩ := ih (fun b hb => h b (List.mem_cons_of_mem _ hb)) doc'
    rw [List.cons_append, applyBlocks, applyBlocks, hsplit]
    refine ⟨hnone, ?_⟩
    dsimp only
    rw [happend, List.append_assoc]

/-- The first refused block stops parsing, and states nothing. -/
theorem applyBlocks_stops {done : List Block} {b : Block} {e : Error}
    (h : ∀ b ∈ done, b.refusal? = none) (hb : b.refusal? = some e) (doc : Document)
    (rest : List Block) :
    (applyBlocks doc (done ++ b :: rest)).failure = some e ∧
    (applyBlocks doc (done ++ b :: rest)).document = (applyBlocks doc done).document := by
  rw [(applyBlocks_append h doc _).2]
  rw [← b.errorOf?_apply (applyBlocks doc done).document, errorOf?_eq_some] at hb
  have hsplit : b.apply (applyBlocks doc done).document =
      ((b.apply (applyBlocks doc done).document).1, .error e) := Prod.ext rfl hb
  rw [applyBlocks, hsplit]
  exact ⟨rfl, rfl⟩

/-- Parsing blocks fails with the refusal of the first that is refused. -/
theorem failure_applyBlocks (doc : Document) (blocks : List Block) :
    (applyBlocks doc blocks).failure = blocks.findSome? Block.refusal? := by
  cases h : blocks.findSome? Block.refusal? with
  | none =>
    rw [List.findSome?_eq_none_iff] at h
    exact (applyBlocks_append h doc []).1
  | some e =>
    obtain ⟨done, b, rest, rfl, hb, hdone⟩ := List.findSome?_eq_some_iff.mp h
    exact (applyBlocks_stops hdone hb doc rest).1

/-! ## Parsing lines -/

/-- The complaint about a line above the first header. -/
def strayRefusal (l : Line) : Error :=
  let text := String.ofList (trim l.text)
  .unrecognized s!"Unrecognized plain text '{text}'. Add ':' to the end to make a declaration"
    l.number

/-- What is wrong with the lines above the first header. -/
def leadRefusal? (lead : List Line) : Option Error := (lead.find? (!·.isEmpty)).map strayRefusal

/-- Adds the declarations of lines to a document. -/
def parseLines (doc : Document) (lines : List Line) : Parsed :=
  match leadRefusal? (Block.split lines).1 with
  | some e => ⟨doc, some e, []⟩
  | none => applyBlocks doc (Block.split lines).2

theorem parseInto_eq (doc : Document) (source : String) :
    parseInto doc source = parseLines doc (sourceLines source.toList) := by
  rw [parseInto, parseLines, leadRefusal?]
  rcases Block.split (sourceLines source.toList) with ⟨lead, blocks⟩
  dsimp only
  cases lead.find? (!·.isEmpty) with
  | none => rfl
  | some l => rfl

/-- Lines of blanks make no difference. -/
theorem parseLines_filled (doc : Document) (lines : List Line) :
    parseLines doc (lines.filter (!·.isEmpty)) = parseLines doc lines := by
  have hfilled : ∀ b : Block, b.filled.apply = b.apply := by
    intro b
    have hstatements : b.filled.statements = b.statements := by
      rw [Block.statements, Block.filled, Block.statements, List.filter_filter]
      simp only [Bool.and_self]
    funext doc
    rw [Block.apply, hstatements, Block.apply]
    rfl
  have hblocks : ∀ (blocks : List Block) (doc : Document),
      applyBlocks doc (blocks.map Block.filled) = applyBlocks doc blocks := by
    intro blocks
    induction blocks with
    | nil => exact fun doc => rfl
    | cons b rest ih =>
      intro doc
      rw [List.map_cons, applyBlocks, applyBlocks, hfilled]
      rcases b.apply doc with ⟨events, r⟩
      cases r with
      | error e => rfl
      | ok doc' =>
        dsimp only
        rw [ih]
  have hlead : ∀ lead : List Line, leadRefusal? (lead.filter (!·.isEmpty)) = leadRefusal? lead := by
    intro lead
    rw [leadRefusal?, List.find?_filter, leadRefusal?]
    simp only [and_self, Bool.decide_eq_true]
  rw [parseLines, Block.split_filled, hlead, hblocks, ← parseLines]

/-- What is wrong with lines: the first that is not empty above the headers, or else the first block
    that is refused. -/
def linesRefusal? (lines : List Line) : Option Error :=
  (leadRefusal? (Block.split lines).1).or ((Block.split lines).2.findSome? Block.refusal?)

theorem failure_parseLines (doc : Document) (lines : List Line) :
    (parseLines doc lines).failure = linesRefusal? lines := by
  rw [parseLines, linesRefusal?]
  cases leadRefusal? (Block.split lines).1 with
  | none => exact failure_applyBlocks doc _
  | some e => rfl

end ViewSheet
