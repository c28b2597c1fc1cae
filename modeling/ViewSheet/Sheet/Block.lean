/-
  Blocks: a header and the lines up to the next one.

  1. **Program**: a line that ends in a colon is a header; it names one or more declarations, with
     commas between them, that share the lines below it.  `Block.split` cuts a source into the lines
     before the first header and the blocks.  `Block.apply` states a block's body under each of its
     names, and `parseInto` does so block by block until one of them fails.

  2. **Specification**: cutting loses nothing and reorders nothing (`flatten_split`), and only a
     block's first line is a header (`isHeader_of_mem_split`, `not_isHeader_of_mem_body`).
-/
import ViewSheet.Sheet.Body

namespace ViewSheet

open Text

/-! ## Cutting a source -/

/-- Whether a line opens a block. -/
def isHeader (l : Line) : Bool := l.text.getLast? == some ':'

/-- A header and the lines under it. -/
structure Block where
  header : Line
  body : List Line
deriving DecidableEq, Repr

namespace Block

/-- The lines before the first header, and the blocks. -/
def split : List Line → List Line × List Block
  | [] => ([], [])
  | l :: rest =>
    let (lead, blocks) := split rest
    if isHeader l then ([], ⟨l, lead⟩ :: blocks) else (l :: lead, blocks)

/-! ## Stating a block -/

/-- The names that the header lists. -/
def names (b : Block) : Except Error (List String) :=
  let parts := (pieces ',' b.header.text.dropLast).map trim
  if parts.any (·.isEmpty) then
    .error (.unrecognized
      s!"Empty declaration name in '{String.ofList (trim b.header.text)}'" b.header.number)
  else .ok (parts.map String.ofList)

/-- The lines of the body that are not empty. -/
def statements (b : Block) : List Line := b.body.filter (!·.isEmpty)

/-- States a body under each of the names.  Reading it anew for every name repeats the warnings that
    come with the reading. -/
def stateAll (reading : List Event) (body : Body) : Document → List String → List Event × Document
  | doc, [] => ([], doc)
  | doc, name :: rest =>
    let (events, doc') := doc.amend name body.apply
    let (more, final) := stateAll reading body doc' rest
    (reading ++ events ++ more, final)

/-- States the block's body under its names.  An empty body states nothing and creates nothing; a
    malformed one is blamed on the first name, before anything is stated. -/
def apply (b : Block) (doc : Document) : List Event × Except Error Document :=
  match b.names with
  | .error e => ([], .error e)
  | .ok names =>
    if b.statements.isEmpty then ([], .ok doc)
    else match Body.read b.statements with
      | (events, .error e) =>
        (events, .error (e.during ("while parsing declaration '" ++ names.headD "" ++ "'")))
      | (events, .ok body) =>
        let (all, doc') := stateAll events body doc names
        (all, .ok doc')

end Block

/-! ## Parsing -/

/-- What came of parsing: the document as far as it got, the error that stopped it, and the
    warnings. -/
structure Parsed where
  document : Document
  failure : Option Error
  events : List Event
deriving DecidableEq, Repr

/-- Applies blocks until one fails. -/
def applyBlocks : Document → List Block → Parsed
  | doc, [] => ⟨doc, none, []⟩
  | doc, b :: rest => match b.apply doc with
    | (events, .error e) => ⟨doc, some e, events⟩
    | (events, .ok doc') =>
      let after := applyBlocks doc' rest
      { after with events := events ++ after.events }

/-- Adds the declarations of a source to a document. -/
def parseInto (doc : Document) (source : String) : Parsed :=
  let (lead, blocks) := Block.split (sourceLines source.toList)
  match lead.find? (!·.isEmpty) with
  | some stray =>
    let text := String.ofList (trim stray.text)
    ⟨doc, some (.unrecognized
      s!"Unrecognized plain text '{text}'. Add ':' to the end to make a declaration"
      stray.number), []⟩
  | none => applyBlocks doc blocks

/-- The document of a source. -/
def parse (source identifier : String) : List Event × Except Error Document :=
  let parsed := parseInto (.empty identifier) source
  match parsed.failure with
  | some e => (parsed.events, .error (e.during s!"while parsing {identifier}"))
  | none => (parsed.events, .ok parsed.document)

/-! ## Cutting loses nothing -/

namespace Block

theorem flatten_split (lines : List Line) :
    (split lines).1 ++ (split lines).2.flatMap (fun b => b.header :: b.body) = lines := by
  induction lines with
  | nil => rfl
  | cons l rest ih =>
    simp only [split]
    split
    · simpa using ih
    · simpa using ih

theorem isHeader_of_mem_split {lines : List Line} {b : Block} (h : b ∈ (split lines).2) :
    isHeader b.header = true := by
  induction lines with
  | nil => simp [split] at h
  | cons l rest ih =>
    simp only [split] at h
    split at h
    · rename_i hl
      rcases List.mem_cons.1 h with rfl | h
      · exact hl
      · exact ih h
    · exact ih h

theorem not_isHeader_of_mem_lead {lines : List Line} {l : Line} (h : l ∈ (split lines).1) :
    isHeader l = false := by
  induction lines with
  | nil => simp [split] at h
  | cons k rest ih =>
    simp only [split] at h
    split at h
    · simp at h
    · rename_i hk
      rcases List.mem_cons.1 h with rfl | h
      · simpa using hk
      · exact ih h

theorem not_isHeader_of_mem_body {lines : List Line} {b : Block} (h : b ∈ (split lines).2)
    {l : Line} (hl : l ∈ b.body) : isHeader l = false := by
  induction lines with
  | nil => simp [split] at h
  | cons k rest ih =>
    simp only [split] at h
    split at h
    · rcases List.mem_cons.1 h with rfl | h
      · exact not_isHeader_of_mem_lead hl
      · exact ih h
    · exact ih h

end Block

end ViewSheet
