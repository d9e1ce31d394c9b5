import SchemaBindings.Proofs.Code.Finished
import SchemaBindings.SymbolTable

/-!
The outline of a file: every structure and every enumeration in it, at any depth and as often as it
is there, with the names that lead to it.
-/

namespace SchemaBindings.Code

variable {module : ModuleId} {parent : List String} {r : Relocation}

mutual

/-- The structures and enumerations of an item as symbols; `parent` leads to its scope inside the
module. -/
def Item.symbols (module : ModuleId) (parent : List String) : Item → List Symbol
  | .struct _ name _ | .unit _ name => [⟨module, parent ++ [name.text], .message⟩]
  | .enum _ name _ => [⟨module, parent ++ [name.text], .enum⟩]
  | .module _ name items => symbolsOf module (parent ++ [name.text]) items
  | .use .. | .moduleFile .. | .implementation .. | .other .. => []

def symbolsOf (module : ModuleId) (parent : List String) : List Item → List Symbol
  | [] => []
  | i :: rest => i.symbols module parent ++ symbolsOf module parent rest

end

theorem symbolsOf_eq_flatMap (items : List Item) :
    symbolsOf module parent items = items.flatMap (·.symbols module parent) := by
  induction items with
  | nil => rfl
  | cons i rest ih => rw [symbolsOf, ih, List.flatMap_cons]

theorem symbolsOf_append (items more : List Item) :
    symbolsOf module parent (items ++ more) =
      symbolsOf module parent items ++ symbolsOf module parent more := by
  simp only [symbolsOf_eq_flatMap, List.flatMap_append]

/-- What is not written where it stands has no outline. -/
theorem symbolsOf_eq_nil {items : List Item} (h : ∀ item ∈ items, item.isInline = false) :
    symbolsOf module parent items = [] := by
  rw [symbolsOf_eq_flatMap, List.flatMap_eq_nil_iff]
  intro item hm
  have hi := h item hm
  cases item <;> first | rfl | cases hi

mutual

theorem Item.symbols_finished {parent : List String} {i i' : Item} (h : i.Finished r i') :
    i'.symbols module parent = i.symbols module parent := by
  match i with
  | .use .. | .moduleFile .. | .unit .. | .other .. =>
    cases h
    rfl
  | .implementation .. =>
    obtain ⟨_, rfl, -⟩ := h.of_implementation
    rfl
  | .struct .. =>
    rw [h.of_struct]
    rfl
  | .enum .. =>
    rw [h.of_enum]
    rfl
  | .module _ _ inner =>
    obtain ⟨inner', rfl, hinner⟩ := h.of_module
    rw [Item.symbols, Item.symbols]
    exact symbolsOf_finished hinner

/-- The outline of a file stays when its items are finished. -/
theorem symbolsOf_finished {parent : List String} {items items' : List Item}
    (h : List.Forall₂ (Item.Finished r) items items') :
    symbolsOf module parent items' = symbolsOf module parent items := by
  match items with
  | [] =>
    cases h
    rfl
  | i :: rest =>
    obtain _ | ⟨hi, hrest⟩ := h
    rw [symbolsOf, symbolsOf, Item.symbols_finished hi, symbolsOf_finished hrest]

end

end SchemaBindings.Code
