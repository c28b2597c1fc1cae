/-
  Inheritance: which setters the views of a stock class have.

  The classes along the chain of a stock class are known (`chain_stock`), and a property goes to the
  first of them that has a setter for it.  So each view takes the properties of containers, and a
  text field sets its text and its cover with setters of its own.
-/
import ViewSheet.Proofs.StockSetters

namespace ViewSheet

namespace Catalogue

/-- The stock classes, each with the classes that it descends from, itself first. -/
def stockChains : List (String × List String) :=
  [("Container", ["Container"]), ("Control", ["Control", "Container"]),
    ("Label", ["Label", "Container"]), ("Button", ["Button", "Label", "Container"]),
    ("Stack", ["Stack", "Container"]), ("TextField", ["TextField", "Control", "Container"])]

theorem chain_stock : ∀ p ∈ stockChains, stock.chain p.1 = ([], p.2) := by
  decide +kernel

/-- There are no other classes. -/
theorem mem_stockChains_of_hasClass {name : String} (h : stock.hasClass name = true) :
    ∃ names, (name, names) ∈ stockChains := by
  have hkeys : stock.classes.entries.map (·.1) = stockChains.map (·.1) := by decide +kernel
  obtain ⟨entry, hentry⟩ := Option.isSome_iff_exists.mp h
  have hname : name ∈ stockChains.map (·.1) := by
    rw [← hkeys]
    exact List.mem_map_of_mem (f := Prod.fst) (NameMap.mem_of_get? hentry)
  obtain ⟨⟨_, names⟩, hmem, rfl⟩ := List.mem_map.mp hname
  exact ⟨names, hmem⟩

/-- A property goes to the first class along the chain that has a setter for it. -/
theorem setter?_of_chain {c : Catalogue} {name : String} {events : List Event}
    {names : List String} (h : c.chain name = (events, names)) (property : String) :
    c.setter? name property =
      (names.filterMap c.table?).findSome? fun t => t.setters.get? property := by
  rw [setter?, tablesFor, h]

theorem setter?_stock {name : String} {names : List String} (h : (name, names) ∈ stockChains)
    (property : String) : stock.setter? name property =
      (names.filterMap stock.table?).findSome? fun t => t.setters.get? property :=
  setter?_of_chain (chain_stock _ h) property

/-- **Views of all stock classes take over sizes.** -/
theorem setter?_matchSize {name : String} (h : stock.hasClass name = true) :
    stock.setter? name "matchSize" =
      some (ViewClass.container.attachedProperty "matchSize" .identifier matchSize).setter := by
  obtain ⟨names, hnames⟩ := mem_stockChains_of_hasClass h
  rw [setter?_stock hnames]
  simp only [stockChains, List.mem_cons, Prod.mk.injEq, List.not_mem_nil, or_false] at hnames
  rcases hnames with ⟨-, rfl⟩ | ⟨-, rfl⟩ | ⟨-, rfl⟩ | ⟨-, rfl⟩ | ⟨-, rfl⟩ | ⟨-, rfl⟩ <;> rfl

/-- A text field has the setters of its own class. -/
theorem setter?_textField {r : Registration} (h : r ∈ textFieldProperties) :
    stock.setter? "TextField" r.property = some r.setter := by
  rw [setter?_stock (List.mem_of_getElem? (i := 5) rfl)]
  simp only [textFieldProperties, List.mem_cons, List.not_mem_nil, or_false] at h
  rcases h with rfl | rfl | rfl | rfl | rfl | rfl | rfl | rfl <;> rfl

end Catalogue

end ViewSheet
