/-
  Renumbering: what the numbers of lines are good for.

  1. **Program**: a line has a number, which goes into the errors about it and is stored with the
     properties that are stated on it.

  2. **Specification**: nothing is decided by a number.  To give lines other numbers and parse them
     is to parse them, and give the properties and the error other numbers (`parseLines_renumber`).
     Each step of the parser has such an equation, and needs only those of the steps in it.
-/
import ViewSheet.Proofs.Refusals

namespace ViewSheet

open Text

/-! ## Other numbers -/

/-- The map with other values under the same names. -/
def NameMap.map {ν μ : Type} (g : ν → μ) (m : NameMap ν) : NameMap μ :=
  ⟨m.entries.map fun (name, value) => (name, g value)⟩

def Text.Line.renumber (f : Nat → Nat) (l : Line) : Line := { l with number := f l.number }

def Fault.renumber (f : Nat → Nat) : Fault → Fault
  | unhandledProperty detail line => unhandledProperty detail (f line)
  | unrecognized detail line => unrecognized detail (f line)
  | fault => fault

def Error.renumber (f : Nat → Nat) (e : Error) : Error := { e with fault := e.fault.renumber f }

def PropertyText.renumber (f : Nat → Nat) (p : PropertyText) : PropertyText :=
  { p with line := f p.line }

def Declaration.renumber (f : Nat → Nat) (d : Declaration) : Declaration :=
  { d with properties := d.properties.map (·.renumber f) }

def Document.renumber (f : Nat → Nat) (doc : Document) : Document :=
  { doc with declarations := doc.declarations.map (·.renumber f) }

def Assignment.renumber (f : Nat → Nat) (a : Assignment) : Assignment := { a with line := f a.line }

def Body.renumber (f : Nat → Nat) : Body → Body
  | setters assignments => setters (assignments.map (·.renumber f))
  | hierarchy h => hierarchy h

def Block.renumber (f : Nat → Nat) (b : Block) : Block :=
  ⟨b.header.renumber f, b.body.map (·.renumber f)⟩

/-- An outcome with other numbers: `g` has them for a value. -/
def renumbered {α β : Type} (f : Nat → Nat) (g : α → β) : Except Error α → Except Error β
  | .ok a => .ok (g a)
  | .error e => .error (e.renumber f)

/-! ## Stating -/

namespace NameMap

variable {ν μ : Type} (g : ν → μ)

theorem get?_map (m : NameMap ν) (name : String) : (m.map g).get? name = (m.get? name).map g := by
  obtain ⟨entries⟩ := m
  simp only [get?, map]
  induction entries with
  | nil => rfl
  | cons entry rest ih =>
    simp only [List.map_cons, find]
    split
    · rfl
    · exact ih

theorem map_map {ξ : Type} (k : μ → ξ) (m : NameMap ν) :
    (m.map g).map k = m.map fun value => k (g value) := by
  simp only [map, List.map_map]
  rfl

theorem map_insert (m : NameMap ν) (name : String) (value : ν) :
    (m.insert name value).map g = (m.map g).insert name (g value) := by
  obtain ⟨entries⟩ := m
  simp only [insert, map, mk.injEq]
  induction entries with
  | nil => rfl
  | cons entry rest ih =>
    simp only [List.map_cons, put]
    split
    · rfl
    · rw [List.map_cons, ih]

end NameMap

section
variable (f : Nat → Nat)

theorem Declaration.renumber_renumber (g : Nat → Nat) (d : Declaration) :
    (d.renumber f).renumber g = d.renumber fun n => g (f n) := by
  rw [renumber, renumber, NameMap.map_map]
  rfl

theorem Document.renumber_renumber (g : Nat → Nat) (doc : Document) :
    (doc.renumber f).renumber g = doc.renumber fun n => g (f n) := by
  rw [renumber, renumber, NameMap.map_map]
  simp only [Declaration.renumber_renumber]
  rfl

theorem Declaration.setProperty_renumber (d : Declaration) (key value : String) (line : Nat) :
    ((d.renumber f).setProperty key value (f line)).2 =
      (d.setProperty key value line).2.renumber f := by
  simp only [setProperty, renumber, NameMap.map_insert, PropertyText.renumber]

theorem Assignment.applyAll_renumber (assignments : List Assignment) (d : Declaration) :
    (applyAll (d.renumber f) (assignments.map (·.renumber f))).2 =
      (applyAll d assignments).2.renumber f := by
  induction assignments generalizing d with
  | nil => rfl
  | cons a rest ih =>
    rw [List.map_cons, applyAll, applyAll]
    dsimp only
    rw [← ih]
    exact congrArg (fun d => (applyAll d _).2) (d.setProperty_renumber f _ _ _)

theorem Body.apply_renumber (body : Body) (d : Declaration) :
    ((body.renumber f).apply (d.renumber f)).2 = (body.apply d).2.renumber f := by
  cases body with
  | setters assignments => exact Assignment.applyAll_renumber f assignments d
  | hierarchy h => rfl

theorem Document.amend_renumber {change change' : Declaration → List Event × Declaration}
    (h : ∀ d, (change' (d.renumber f)).2 = (change d).2.renumber f) (doc : Document)
    (name : String) :
    ((doc.renumber f).amend name change').2 = (doc.amend name change).2.renumber f := by
  have hold : (doc.renumber f).getD name = (doc.getD name).renumber f := by
    simp only [getD, get?, renumber, NameMap.get?_map]
    cases doc.declarations.get? name <;> rfl
  show (⟨doc.identifier, (doc.renumber f).declarations.insert name
    (change' ((doc.renumber f).getD name)).2⟩ : Document) =
      ⟨doc.identifier, (doc.declarations.insert name (change (doc.getD name)).2).map _⟩
  rw [hold, h, NameMap.map_insert]
  rfl

/-- The warnings of a reading are no part of the document. -/
theorem Block.stateAll_renumber (reading reading' : List Event) (body : Body) (names : List String)
    (doc : Document) :
    (stateAll reading' (body.renumber f) (doc.renumber f) names).2 =
      (stateAll reading body doc names).2.renumber f := by
  induction names generalizing doc with
  | nil => rfl
  | cons name rest ih =>
    rw [stateAll, stateAll]
    dsimp only
    rw [doc.amend_renumber f (body.apply_renumber f) name, ih]

/-! ## Reading -/

theorem Assignment.read_renumber (l : Line) :
    read (l.renumber f) = renumbered f (·.renumber f) (read l) := by
  have hexpected : expected (l.renumber f) = (expected l).renumber f := rfl
  have htext : (l.renumber f).text = l.text := rfl
  rw [read, read, hexpected, htext]
  cases stripStart? ['.'] (trimStart l.text) with
  | none => rfl
  | some afterPoint =>
    dsimp only
    split
    · rfl
    · cases stripStart? ['='] (trimStart ((trimStart afterPoint).dropWhile isAlphanumeric)) <;> rfl

theorem Assignment.readAll_renumber (lines : List Line) (pending : Option Assignment) :
    readAll (pending.map (·.renumber f)) (lines.map (·.renumber f)) =
      renumbered f (List.map (·.renumber f)) (readAll pending lines) := by
  have hmap : ∀ (pending : Option Assignment) (r : Except Error (List Assignment)),
      (renumbered f (List.map (·.renumber f)) r).map
          ((pending.map (·.renumber f)).toList ++ ·) =
        renumbered f (List.map (·.renumber f)) (r.map (pending.toList ++ ·)) := by
    intro pending r
    cases r with
    | error e => rfl
    | ok assignments => cases pending <;> rfl
  induction lines generalizing pending with
  | nil => cases pending <;> rfl
  | cons l rest ih =>
    have hopens : opens (l.renumber f) = opens l := rfl
    rw [List.map_cons, readAll.eq_def, readAll.eq_def pending]
    dsimp only
    rw [hopens, read_renumber]
    split
    · cases read l with
      | error e => rfl
      | ok a =>
        show (readAll ((some a).map (·.renumber f)) _).map _ = _
        rw [ih, hmap]
    · cases pending with
      | none => rfl
      | some a => exact ih (some (a.continueWith l))

theorem Growth.readAll_renumber (lines : List Line) (g : Growth) :
    (g.readAll (lines.map (·.renumber f))).2 = renumbered f id (g.readAll lines).2 := by
  induction lines generalizing g with
  | nil => rfl
  | cons l rest ih =>
    have htext : (l.renumber f).text = l.text := rfl
    rw [List.map_cons, readAll, readAll, htext]
    dsimp only
    split
    · exact ih g
    · split
      · rfl
      · exact ih _

theorem Body.read_renumber (lines : List Line) :
    (Body.read (lines.map (·.renumber f))).2 = renumbered f (·.renumber f) (Body.read lines).2 := by
  cases lines with
  | nil => rfl
  | cons first rest =>
    have hopens : Assignment.opens (first.renumber f) = Assignment.opens first := rfl
    rw [List.map_cons, Body.read_cons, Body.read_cons, hopens, ← List.map_cons]
    split
    · have hread := Assignment.readAll_renumber f (first :: rest) none
      rw [Option.map_none] at hread
      rw [hread]
      cases Assignment.readAll none (first :: rest) <;> rfl
    · rw [Growth.readAll_renumber]
      cases (Growth.start.readAll (first :: rest)).2 <;> rfl

/-! ## Parsing -/

namespace Block

theorem names_renumber (b : Block) : (b.renumber f).names = renumbered f id b.names := by
  have htext : (b.renumber f).header.text = b.header.text := rfl
  rw [names, names, htext]
  split <;> rfl

theorem apply_renumber (b : Block) (doc : Document) :
    ((b.renumber f).apply (doc.renumber f)).2 = renumbered f (·.renumber f) (b.apply doc).2 := by
  have hstatements : (b.renumber f).statements = b.statements.map (·.renumber f) := by
    rw [statements, renumber, statements, List.filter_map]
    rfl
  rw [apply, apply, names_renumber, hstatements]
  cases b.names with
  | error e => rfl
  | ok names =>
    rw [renumbered, id_eq]
    dsimp only
    rw [List.isEmpty_map]
    split
    · rfl
    · have hread := Body.read_renumber f b.statements
      generalize Body.read b.statements = read at hread ⊢
      generalize Body.read (b.statements.map (·.renumber f)) = read' at hread ⊢
      obtain ⟨events, r⟩ := read
      obtain ⟨events', r'⟩ := read'
      obtain rfl : r' = renumbered f (·.renumber f) r := hread
      cases r with
      | error e => rfl
      | ok body => exact congrArg Except.ok (stateAll_renumber f events events' body names doc)

theorem split_renumber (lines : List Line) :
    split (lines.map (·.renumber f)) =
      ((split lines).1.map (·.renumber f), (split lines).2.map (·.renumber f)) := by
  induction lines with
  | nil => rfl
  | cons l rest ih =>
    have hheader : isHeader (l.renumber f) = isHeader l := rfl
    rw [List.map_cons]
    cases hl : isHeader l with
    | true =>
      rw [hl] at hheader
      rw [split_header hheader, split_header hl, ih]
      rfl
    | false =>
      rw [hl] at hheader
      rw [split_plain hheader, split_plain hl, ih]
      rfl

end Block

theorem applyBlocks_renumber (blocks : List Block) (doc : Document) :
    (applyBlocks (doc.renumber f) (blocks.map (·.renumber f))).document =
        (applyBlocks doc blocks).document.renumber f ∧
      (applyBlocks (doc.renumber f) (blocks.map (·.renumber f))).failure =
        (applyBlocks doc blocks).failure.map (·.renumber f) := by
  induction blocks generalizing doc with
  | nil => exact ⟨rfl, rfl⟩
  | cons b rest ih =>
    have happly := b.apply_renumber f doc
    rw [List.map_cons, applyBlocks, applyBlocks]
    generalize b.apply doc = result at happly ⊢
    generalize (b.renumber f).apply (doc.renumber f) = result' at happly ⊢
    obtain ⟨events, r⟩ := result
    obtain ⟨events', r'⟩ := result'
    obtain rfl : r' = renumbered f (·.renumber f) r := happly
    cases r with
    | error e => exact ⟨rfl, rfl⟩
    | ok doc' => exact ih doc'

/-- **Nothing is decided by the number of a line.** -/
theorem parseLines_renumber (lines : List Line) (doc : Document) :
    (parseLines (doc.renumber f) (lines.map (·.renumber f))).document =
        (parseLines doc lines).document.renumber f ∧
      (parseLines (doc.renumber f) (lines.map (·.renumber f))).failure =
        (parseLines doc lines).failure.map (·.renumber f) := by
  have hlead : ∀ lead : List Line, leadRefusal? (lead.map (·.renumber f)) =
      (leadRefusal? lead).map (·.renumber f) := by
    intro lead
    rw [leadRefusal?, List.find?_map, leadRefusal?, Option.map_map, Option.map_map]
    rfl
  rw [parseLines, Block.split_renumber, hlead, parseLines]
  cases leadRefusal? (Block.split lines).1 with
  | none => exact applyBlocks_renumber f _ doc
  | some e => exact ⟨rfl, rfl⟩

end

end ViewSheet
