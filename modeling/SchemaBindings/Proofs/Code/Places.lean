import SchemaBindings.Code.Tree.Relocation
import SchemaBindings.Code.WellFormed
import SchemaBindings.Proofs.Outcome

/-!
The places of items: the names that lead to an item through the modules of a file. Where no scope
has a name twice there is one item at a place, and places stay when items are finished.
-/

namespace SchemaBindings.Code

/-- The name that an item defines in its scope. Imports and implementations define none, and of
items that are not generated none is known. -/
def Item.definedName? : Item → Option String
  | .use .. | .implementation .. | .other .. => none
  | .moduleFile name | .module _ name _ | .struct _ name _ | .unit _ name | .enum _ name _ =>
    some name.text

def definedNames (items : List Item) : List String :=
  items.filterMap Item.definedName?

theorem definedNames_cons (item : Item) (rest : List Item) :
    definedNames (item :: rest) = item.definedName?.toList ++ definedNames rest := by
  cases h : item.definedName? <;> simp [definedNames, h]

theorem definedNames_append (items more : List Item) :
    definedNames (items ++ more) = definedNames items ++ definedNames more :=
  List.filterMap_append

/-- Whether the item is one of those that are generated where they stand, unlike an import and a
module in a file of its own. -/
def Item.isInline : Item → Bool
  | .use .. | .moduleFile .. | .other .. => false
  | _ => true

/-- The names that are defined where they are written. -/
def inlineNames (items : List Item) : List String :=
  definedNames (items.filter Item.isInline)

/-- The names that an item imports. -/
def Item.importedNames : Item → List String
  | .use _ names => names.map (·.text)
  | _ => []

/-- The name of a module in a file of its own. -/
def Item.childName? : Item → Option String
  | .moduleFile name => some name.text
  | _ => none

def importedNames (items : List Item) : List String :=
  items.flatMap Item.importedNames

def childNames (items : List Item) : List String :=
  items.filterMap Item.childName?

/-- All names that items bring into their scope, be they imported or defined. -/
def introducedNames (items : List Item) : List String :=
  items.flatMap fun item => item.importedNames ++ item.definedName?.toList

theorem importedNames_append (items more : List Item) :
    importedNames (items ++ more) = importedNames items ++ importedNames more :=
  List.flatMap_append

theorem childNames_append (items more : List Item) :
    childNames (items ++ more) = childNames items ++ childNames more :=
  List.filterMap_append

theorem introducedNames_append (items more : List Item) :
    introducedNames (items ++ more) = introducedNames items ++ introducedNames more :=
  List.flatMap_append

theorem introducedNames_of_inline {items : List Item}
    (h : ∀ item ∈ items, item.isInline = true) : introducedNames items = definedNames items := by
  induction items with
  | nil => rfl
  | cons item rest ih =>
    rw [definedNames_cons, ← ih fun i hi => h i (List.mem_cons_of_mem _ hi), introducedNames,
      List.flatMap_cons]
    cases item with
    | use | other => cases h _ List.mem_cons_self
    | _ => rfl

/-- An item and the names that lead to it from the scope of the given items. -/
inductive ItemAt : List Item → List String → Item → Prop
  | here {items : List Item} {item : Item} {name : String} (h : item ∈ items)
      (hn : item.definedName? = some name) : ItemAt items [name] item
  | inside {items inner : List Item} {attributes : List Attribute} {name : Ident} {item : Item}
      {path : List String} (h : .module attributes name inner ∈ items)
      (hi : ItemAt inner path item) : ItemAt items (name.text :: path) item

namespace ItemAt

variable {items more : List Item} {item : Item} {path : List String} {name : String}

theorem head_mem (h : ItemAt items (name :: path) item) : name ∈ definedNames items := by
  cases h with
  | here h hn => exact List.mem_filterMap.mpr ⟨_, h, hn⟩
  | inside h _ => exact List.mem_filterMap.mpr ⟨_, h, rfl⟩

theorem ne_nil (h : ItemAt items path item) : path ≠ [] := by
  cases h <;> exact List.cons_ne_nil _ _

theorem mono (hs : items ⊆ more) (h : ItemAt items path item) : ItemAt more path item := by
  cases h with
  | here h hn => exact .here (hs h) hn
  | inside h hi => exact .inside (hs h) hi

theorem append_iff : ItemAt (items ++ more) path item ↔
    ItemAt items path item ∨ ItemAt more path item := by
  constructor
  · rintro (⟨h, hn⟩ | ⟨h, hi⟩)
    · exact (List.mem_append.mp h).imp (.here · hn) (.here · hn)
    · exact (List.mem_append.mp h).imp (.inside · hi) (.inside · hi)
  · rintro (h | h)
    · exact h.mono (List.subset_append_left ..)
    · exact h.mono (List.subset_append_right ..)

theorem cons_iff {i : Item} : ItemAt (i :: items) path item ↔
    ItemAt [i] path item ∨ ItemAt items path item :=
  show ItemAt ([i] ++ items) path item ↔ _ from append_iff

/-- What stands inside a module stands behind its path. -/
theorem append {inner : List Item} {attributes : List Attribute} {ident : Ident}
    {parent : List String} (h : ItemAt items parent (.module attributes ident inner))
    (hi : ItemAt inner path item) : ItemAt items (parent ++ path) item := by
  generalize he : Item.module attributes ident inner = m at h
  induction h with
  | here h hn =>
    subst he
    cases hn
    exact .inside h hi
  | inside h _ ih => exact .inside h (ih he)

/-- An item stands at the top or right inside a module. -/
theorem cases_parent (h : ItemAt items path item) :
    (∃ name ∈ definedNames items, path = [name]) ∨
      ∃ parent attributes ident inner, ItemAt items parent (.module attributes ident inner) ∧
        ∃ name ∈ definedNames inner, path = parent ++ [name] := by
  induction h with
  | @here items item name h hn => exact .inl ⟨name, List.mem_filterMap.mpr ⟨item, h, hn⟩, rfl⟩
  | @inside items inner attributes ident item path h _ ih =>
    refine .inr ?_
    rcases ih with ⟨name, hn, rfl⟩ | ⟨parent, as, i, is, hp, name, hn, rfl⟩
    · exact ⟨[ident.text], attributes, ident, inner, .here h rfl, name, hn, rfl⟩
    · exact ⟨ident.text :: parent, as, i, is, .inside h hp, name, hn, rfl⟩

theorem exists_of_mem (h : name ∈ definedNames items) : ∃ item, ItemAt items [name] item := by
  obtain ⟨item, hi, hn⟩ := List.mem_filterMap.mp h
  exact ⟨item, .here hi hn⟩

end ItemAt

/-! ## Scopes without a name twice -/

/-- No name is defined twice in the scope of the items or in that of a module among them. -/
structure DistinctScopes (items : List Item) : Prop where
  here : (definedNames items).Nodup
  inside : ∀ path attributes name inner, ItemAt items path (.module attributes name inner) →
    (definedNames inner).Nodup

namespace DistinctScopes

variable {items inner : List Item} {i j : Item} {path : List String}

theorem of_module {attributes : List Attribute} {name : Ident} (hd : DistinctScopes items)
    (h : .module attributes name inner ∈ items) : DistinctScopes inner where
  here := hd.inside _ attributes name inner (.here h rfl)
  inside := fun path _ _ _ hp => hd.inside (name.text :: path) _ _ _ (.inside h hp)

private theorem eq_of_definedName {name : String} (hd : (definedNames items).Nodup)
    (hi : i ∈ items) (hj : j ∈ items) (hin : i.definedName? = some name)
    (hjn : j.definedName? = some name) : i = j := by
  induction items with
  | nil => cases hi
  | cons head rest ih =>
    have hmem {k : Item} (hk : k ∈ rest) (hkn : k.definedName? = some name) :
        name ∈ definedNames rest := List.mem_filterMap.mpr ⟨k, hk, hkn⟩
    rcases List.mem_cons.mp hi with rfl | hi' <;> rcases List.mem_cons.mp hj with rfl | hj'
    · rfl
    · rw [definedNames, List.filterMap_cons_some hin] at hd
      exact absurd (hmem hj' hjn) (List.nodup_cons.mp hd).1
    · rw [definedNames, List.filterMap_cons_some hjn] at hd
      exact absurd (hmem hi' hin) (List.nodup_cons.mp hd).1
    · refine ih (hd.sublist ?_) hi' hj'
      exact (List.sublist_cons_self head rest).filterMap _

/-- There is one item at a place. -/
theorem unique (hd : DistinctScopes items) (hi : ItemAt items path i) (hj : ItemAt items path j) :
    i = j := by
  induction hi with
  | here h hn =>
    cases hj with
    | here h' hn' => exact eq_of_definedName hd.here h h' hn hn'
    | inside _ hinner => exact absurd rfl hinner.ne_nil
  | @inside items inner attributes name item path h hi ih =>
    generalize hp : name.text :: path = whole at hj
    cases hj with
    | here =>
      cases hp
      exact absurd rfl hi.ne_nil
    | @inside _ inner' attributes' name' _ path' h' hj =>
      obtain ⟨hname, rfl⟩ := List.cons.inj hp
      have he := eq_of_definedName hd.here h h' rfl (congrArg some hname.symm)
      cases he
      exact ih (hd.of_module h) hj

end DistinctScopes

/-! ## Items made from items -/

/-- A relation between items that keeps their names and, inside modules, relates the items. -/
structure Reshapes (R : Item → Item → Prop) : Prop where
  name : ∀ {i i'}, R i i' → i'.definedName? = i.definedName?
  module : ∀ {attributes name inner i'}, R (.module attributes name inner) i' →
    ∃ inner', i' = .module attributes name inner' ∧ List.Forall₂ R inner inner'
  ofModule : ∀ {attributes name inner' i}, R i (.module attributes name inner') →
    ∃ inner, i = .module attributes name inner

namespace Reshapes

variable {R : Item → Item → Prop} {items items' : List Item}

theorem definedNames_eq (hR : Reshapes R) (h : List.Forall₂ R items items') :
    definedNames items' = definedNames items := by
  induction h with
  | nil => rfl
  | cons h _ ih => simp only [definedNames, List.filterMap_cons, hR.name h] at ih ⊢; rw [ih]

/-- What stands at a place afterwards was made from what stood there. -/
theorem itemAt_left (hR : Reshapes R) (h : List.Forall₂ R items items') {path : List String}
    {i' : Item} (hi' : ItemAt items' path i') : ∃ i, ItemAt items path i ∧ R i i' := by
  induction hi' generalizing items with
  | here hm hn =>
    obtain ⟨i, hi, hr⟩ := exists_mem_left h hm
    exact ⟨i, .here hi ((hR.name hr).symm.trans hn), hr⟩
  | inside hm _ ih =>
    obtain ⟨i, hi, hr⟩ := exists_mem_left h hm
    obtain ⟨inner, rfl⟩ := hR.ofModule hr
    obtain ⟨_, he, hinner⟩ := hR.module hr
    cases he
    obtain ⟨j, hj, hrj⟩ := ih hinner
    exact ⟨j, .inside hi hj, hrj⟩

/-- What stands at a place is made into what stands there afterwards. -/
theorem itemAt_right (hR : Reshapes R) (h : List.Forall₂ R items items') {path : List String}
    {i : Item} (hi : ItemAt items path i) : ∃ i', ItemAt items' path i' ∧ R i i' := by
  induction hi generalizing items' with
  | here hm hn =>
    obtain ⟨i', hi', hr⟩ := exists_mem_right h hm
    exact ⟨i', .here hi' ((hR.name hr).trans hn), hr⟩
  | inside hm _ ih =>
    obtain ⟨m', hm', hrm⟩ := exists_mem_right h hm
    obtain ⟨inner', rfl, hinner⟩ := hR.module hrm
    obtain ⟨i', hi', hr⟩ := ih hinner
    exact ⟨i', .inside hm' hi', hr⟩

theorem distinctScopes (hR : Reshapes R) (h : List.Forall₂ R items items')
    (hd : DistinctScopes items) : DistinctScopes items' where
  here := hR.definedNames_eq h ▸ hd.here
  inside := by
    intro path attributes name inner' hp
    obtain ⟨i, hi, hr⟩ := hR.itemAt_left h hp
    obtain ⟨inner, rfl⟩ := hR.ofModule hr
    obtain ⟨_, he, hinner⟩ := hR.module hr
    cases he
    exact hR.definedNames_eq hinner ▸ hd.inside path attributes name inner hi

end Reshapes

end SchemaBindings.Code
