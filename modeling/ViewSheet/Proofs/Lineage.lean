/-
  Lineage: the chain of a class, whatever classes have been registered and in whatever order.

  1. **Program**: `chain` climbs from a class to its superclass, as it stands in the catalogue, and
     further on.  Any class may be registered with any superclass, also with one that is not
     registered, and once more with another; so the links may go round in a circle that the class
     at the start does not lie on.

  2. **Specification**: `superclassGiven?` reads off the registrations what superclass a class has
     been given last.  `IsLineage` says what the chain has to be: it starts with the class, follows
     these superclasses, has no class twice, and ends where nothing new follows.

  3. **The crux** (`Climb.distinct`, `Climb.ends`): a climb goes on only to a class that has not
     been passed, and stops only where there is no such class.  All classes but the last have been
     given a superclass, so a climb has no more rounds than there have been registrations
     (`length_le_of_isLineage`).

  4. **Result** (`chain_enrolled`): the chain is a lineage, the climb to it ends, and a class is a
     subclass of those that superclass links lead to.
-/
import Mathlib.Data.List.Perm.Subperm
import ViewSheet.Proofs.Ancestry
import ViewSheet.Proofs.Receiving

namespace ViewSheet

/-! ## Superclasses as they are registered -/

namespace Enrolment

/-- The class that a registration is for, and the superclass that comes with it. -/
def link? : Enrolment → Option (String × Option String)
  | newClass cls => some (cls.name, cls.superclass)
  | newAbstract name superclass => some (name, superclass)
  | newTable _ => none
  | newProperty _ _ _ _ => none

/-- The superclass that a registration gives to this class, if it is for this class at all. -/
def given? (name : String) (e : Enrolment) : Option (Option String) :=
  e.link?.bind fun link => if link.1 = name then some link.2 else none

/-- A registration gives its class a superclass, and leaves all others as they are. -/
theorem superclass?_run (e : Enrolment) (c : Catalogue) (name : String) :
    Catalogue.superclass? (e.run c).classes name =
      (e.given? name).getD (Catalogue.superclass? c.classes name) := by
  have hinsert : ∀ (other : String) (entry : ClassEntry),
      Catalogue.superclass? (c.classes.insert other entry) name =
        (if other = name then some entry.superclass else none).getD
          (Catalogue.superclass? c.classes name) := by
    intro other entry
    rw [Catalogue.superclass?, NameMap.get?_insert]
    by_cases hname : other = name
    · rw [if_pos hname.symm, if_pos hname]
      rfl
    · rw [if_neg (Ne.symm hname), if_neg hname]
      rfl
  cases e with
  | newClass cls => exact hinsert cls.name _
  | newAbstract other superclass => exact hinsert other _
  | newTable other => rfl
  | newProperty cls property kind hooks => rfl

end Enrolment

/-- The superclass that registrations give to a class; the last one for the class counts. -/
def superclassGiven? (es : List Enrolment) (name : String) : Option String :=
  (es.reverse.findSome? (Enrolment.given? name)).join

theorem superclass?_enrolled (es : List Enrolment) :
    Catalogue.superclass? (Catalogue.enrolled es).classes = superclassGiven? es := by
  funext name
  induction es using List.reverseRecOn with
  | nil =>
    -- the base class is there from the start, and has no superclass
    rw [Catalogue.enrolled, List.foldl_nil, Catalogue.empty, Catalogue.registerClass,
      Catalogue.superclass?, NameMap.get?_insert]
    split
    · rename_i entry hentry
      split at hentry
      · cases hentry
        rfl
      · cases hentry
    · rfl
  | append_singleton es e ih =>
    rw [Catalogue.enrolled, List.foldl_append, List.foldl_cons, List.foldl_nil,
      ← Catalogue.enrolled, e.superclass?_run, ih, superclassGiven?, superclassGiven?,
      List.reverse_append, List.reverse_singleton, List.singleton_append, List.findSome?_cons]
    cases e.given? name with
    | none => rfl
    | some superclass => rfl

/-- A class that has been given a superclass is among those that registrations have been for. -/
theorem mem_of_superclassGiven? {es : List Enrolment} {name next : String}
    (h : superclassGiven? es name = some next) :
    name ∈ es.filterMap fun e => e.link?.map Prod.fst := by
  have hfound := Option.join_eq_some_iff.mp h
  obtain ⟨e, he, hgiven⟩ := List.exists_of_findSome?_eq_some hfound
  obtain ⟨link, hlink, hname⟩ := Option.bind_eq_some_iff.mp hgiven
  refine List.mem_filterMap.mpr ⟨e, List.mem_reverse.mp he, ?_⟩
  split at hname
  · rename_i heq
    rw [hlink, Option.map_some, heq]
  · cases hname

/-! ## Lineages -/

/-- A class and those that come above it: each is the superclass of the one before, none comes
    twice, and the last has no superclass other than those that have come. -/
structure IsLineage (superclass : String → Option String) (name : String) (names : List String) :
    Prop where
  starts : names.head? = some name
  linked : names.IsChain fun below above => superclass below = some above
  distinct : names.Nodup
  ends : ∀ last ∈ names.getLast?, ∀ next, superclass last = some next → next ∈ names

namespace Catalogue

namespace Climb

variable {c : Catalogue} {passed above : List String} {current : String}

/-- A climb goes from superclass to superclass. -/
theorem linked (h : c.Climb passed current above) : (current :: above).IsChain c.Above := by
  induction h with
  | top => exact .singleton _
  | loop => exact .singleton _
  | step link _ _ ih => exact .cons_cons link ih

/-- A climb comes to no class twice, nor to one that has been passed before. -/
theorem distinct (h : c.Climb passed current above) (hpassed : passed.Nodup) :
    (passed ++ above).Nodup := by
  induction h with
  | top => rwa [List.append_nil]
  | loop => rwa [List.append_nil]
  | step _ new _ ih =>
    have hrest := ih (nodup_append_single hpassed new)
    rwa [List.append_assoc, List.singleton_append] at hrest

/-- A climb ends at a class from where it would come to no further one. -/
theorem ends (h : c.Climb passed current above) : ∀ last ∈ (current :: above).getLast?,
    ∀ next, c.Above last next → next ∈ passed ++ above := by
  induction h with
  | @top passed current last =>
    intro name hname next hnext
    cases hname
    exact absurd hnext (last next)
  | @loop passed current other link known =>
    intro name hname next hnext
    cases hname
    rw [List.append_nil]
    exact hnext.unique link ▸ known
  | @step passed above current other _ _ _ ih =>
    intro name hname next hnext
    rw [List.getLast?_cons_cons] at hname
    have hmem := ih name hname next hnext
    rwa [List.append_assoc, List.singleton_append] at hmem

end Climb

theorem isLineage_chain (c : Catalogue) (name : String) :
    IsLineage (superclass? c.classes) name (c.chain name).2 := by
  obtain ⟨above, hchain, hclimb⟩ := c.climb_chain name
  rw [hchain]
  exact ⟨rfl, hclimb.linked, hclimb.distinct (by simp), hclimb.ends⟩

end Catalogue

/-- In a chain of links every entry but the last is linked to another. -/
theorem exists_of_mem_dropLast {α : Type} {R : α → α → Prop} {xs : List α} (h : xs.IsChain R)
    {x : α} (hx : x ∈ xs.dropLast) : ∃ y, R x y := by
  induction h with
  | nil => cases hx
  | singleton a => cases hx
  | @cons_cons a b rest hlink _ ih =>
    rw [List.dropLast_cons_cons] at hx
    rcases List.mem_cons.mp hx with rfl | hlater
    · exact ⟨b, hlink⟩
    · exact ih hlater

/-- A lineage is no longer than there have been registrations, and one more. -/
theorem length_le_of_isLineage {es : List Enrolment} {name : String} {names : List String}
    (h : IsLineage (superclassGiven? es) name names) : names.length ≤ es.length + 1 := by
  have hsub : names.dropLast ⊆ es.filterMap fun e => e.link?.map Prod.fst := by
    intro other hother
    obtain ⟨next, hnext⟩ := exists_of_mem_dropLast h.linked hother
    exact mem_of_superclassGiven? hnext
  have hdistinct := h.distinct.sublist names.dropLast_sublist
  have hlength := (hdistinct.subperm hsub).length_le
  have hmost := List.length_filterMap_le (fun e : Enrolment => e.link?.map Prod.fst) es
  rw [List.length_dropLast] at hlength
  omega

/-- **The chain of a class, after any registrations.**  It starts with the class, follows the
    superclasses as they have been registered last, has no class twice, and ends at a class that has
    no superclass or one that is in the chain.  The climb to it ends, after at most as many rounds
    as there have been registrations.  A class is a subclass of just those that such links lead to,
    in no, one or more steps. -/
theorem Catalogue.chain_enrolled (es : List Enrolment) (name : String) :
    IsLineage (superclassGiven? es) name ((enrolled es).chain name).2 ∧
    (∃ above, ((enrolled es).chain name).2 = name :: above ∧
      (enrolled es).Climb [name] name above ∧ above.length ≤ es.length) ∧
    ∀ ancestor, ((enrolled es).isSubclass name ancestor).2 = true ↔
      Relation.ReflTransGen (fun below above => superclassGiven? es below = some above)
        name ancestor := by
  have hlineage := (enrolled es).isLineage_chain name
  rw [superclass?_enrolled] at hlineage
  refine ⟨hlineage, ?_, fun ancestor => ?_⟩
  · obtain ⟨above, hchain, hclimb⟩ := (enrolled es).climb_chain name
    have hlength := length_le_of_isLineage hlineage
    rw [hchain, List.length_cons] at hlength
    exact ⟨above, hchain, hclimb, Nat.le_of_succ_le_succ hlength⟩
  · rw [isSubclass_iff, Descends, ← superclass?_enrolled]
    rfl

end ViewSheet
