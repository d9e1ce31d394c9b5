import SchemaBindings.Proofs.Code.Paths
import SchemaBindings.Proofs.Code.Places

/-!
Items as they stand in a finished file: read back, and then relocated. Their names and modules stay,
and every name on the way to one of them can name an item.
-/

namespace SchemaBindings.Code

variable {r : Relocation}

theorem itemsReadBack?_eq_some {items items' : List Item} : itemsReadBack? items = some items' ↔
    List.Forall₂ (fun i i' => i.readBack? = some i') items items' := by
  induction items generalizing items' with
  | nil => simp [itemsReadBack?, eq_comm]
  | cons i rest ih =>
    simp only [itemsReadBack?, Option.bind_eq_bind, Option.bind_eq_some_iff]
    constructor
    · rintro ⟨i', hi, rest', hrest, he⟩
      cases he
      exact .cons hi (ih.mp hrest)
    · rintro (_ | ⟨hi, hrest⟩)
      exact ⟨_, hi, _, ih.mpr hrest, rfl⟩

theorem moduleFiles_of_readBack? {idents : List Ident} {items : List Item}
    (h : itemsReadBack? (idents.map Item.moduleFile) = some items) :
    items = idents.map Item.moduleFile := by
  induction idents generalizing items with
  | nil =>
    cases h
    rfl
  | cons ident rest ih =>
    obtain _ | ⟨hi, hrest⟩ := itemsReadBack?_eq_some.mp h
    rw [Item.readBack?] at hi
    split at hi <;> cases hi
    rw [ih (itemsReadBack?_eq_some.mpr hrest)]
    rfl

theorem relocateItems_eq (items : List Item) :
    relocateItems r items = items.map (·.relocate r) := by
  induction items with
  | nil => rfl
  | cons i rest ih => rw [relocateItems, ih, List.map_cons]

/-- The function that one is read back as, and relocated. A body that can be written as it is stays
so. -/
structure Function.Finished (r : Relocation) (f f' : Function) : Prop where
  head : ∃ body, f' = { f with body }.relocate r
  body : allStatements wellFormed f.body = true → f' = f.relocate r

theorem Function.finished_of_readBack? {f f' : Function} (h : f.readBack? = some f') :
    f.Finished r (f'.relocate r) := by
  rw [Function.readBack?] at h
  split at h
  · cases h
  split at h
  · cases h
    exact ⟨⟨f.body, rfl⟩, fun _ => rfl⟩
  · next hbody =>
    obtain ⟨body, -, rfl⟩ := Option.map_eq_some_iff.mp h
    exact ⟨⟨body, rfl⟩, fun hb => absurd hb hbody⟩

/-- The implementation of a client in a finished file. Of what stands before its functions only the
type of its wire name is relocated. -/
def Item.finishedClient (r : Relocation) (name : Ident) (serviceName : String)
    (functions : List Function) : Item :=
  .implementation (.named name) (some ((Constant.wireName serviceName).relocate r)) functions

/-- The item that one is read back as, and relocated. -/
inductive Item.Finished (r : Relocation) : Item → Item → Prop
  | use (module : Path) (names : List Ident) : Finished r (.use module names) (.use module names)
  | moduleFile {name : Ident} (hn : name.isName = true) :
    Finished r (.moduleFile name) (.moduleFile name)
  | module (attributes : List Attribute) {name : Ident} {inner inner' : List Item}
      (hn : name.isName = true) (h : itemsReadBack? inner = some inner') :
    Finished r (.module attributes name inner) (.module attributes name (relocateItems r inner'))
  | struct (attributes : List Attribute) {name : Ident} (fields : List StructField)
      (hn : name.isName = true) :
    Finished r (.struct attributes name fields)
      (.struct attributes name (fields.map (·.relocate r)))
  | unit (attributes : List Attribute) {name : Ident} (hn : name.isName = true) :
    Finished r (.unit attributes name) (.unit attributes name)
  | enum (attributes : List Attribute) {name : Ident} (variants : List Variant)
      (hn : name.isName = true) :
    Finished r (.enum attributes name variants)
      (.enum attributes name (variants.map (·.relocate r)))
  | implementation (self : Ty) (constant : Option Constant) {functions functions' : List Function}
      (h : functions.mapM Function.readBack? = some functions') :
    Finished r (.implementation self constant functions)
      (.implementation (self.relocate r) (constant.map (·.relocate r))
        (functions'.map (·.relocate r)))
  | other (parts : List Part) (assemble : List Written → Written) :
    Finished r (.other parts assemble) (.other (mapParts (Ty.relocateHead r) parts) assemble)

theorem Item.finished_of_readBack? {i j : Item} (h : i.readBack? = some j) :
    i.Finished r (j.relocate r) := by
  cases i with
  | use module names =>
    rw [readBack?] at h
    split at h <;> cases h
    rw [relocate]
    exact .use module names
  | moduleFile name =>
    rw [readBack?] at h
    split at h <;> cases h
    rw [relocate]
    exact .moduleFile ‹_›
  | module attributes name inner =>
    rw [readBack?] at h
    split at h
    · next hn =>
      obtain ⟨inner', hinner, rfl⟩ := Option.map_eq_some_iff.mp h
      rw [relocate]
      exact .module attributes (Bool.and_eq_true_iff.mp hn).2 hinner
    · cases h
  | struct attributes name fields =>
    rw [readBack?] at h
    split at h <;> cases h
    rw [relocate]
    exact .struct attributes fields (by simp_all)
  | unit attributes name =>
    rw [readBack?] at h
    split at h <;> cases h
    rw [relocate]
    exact .unit attributes (by simp_all)
  | enum attributes name variants =>
    rw [readBack?] at h
    split at h <;> cases h
    rw [relocate]
    exact .enum attributes variants (by simp_all)
  | implementation self constant functions =>
    rw [readBack?] at h
    split at h
    · obtain ⟨functions', hf, rfl⟩ := Option.map_eq_some_iff.mp h
      rw [relocate]
      exact .implementation self constant hf
    · cases h
  | other parts assemble =>
    cases h
    rw [relocate]
    exact .other parts assemble

theorem forall₂_finished {items items' : List Item} (h : itemsReadBack? items = some items') :
    List.Forall₂ (Item.Finished r) items (relocateItems r items') := by
  rw [relocateItems_eq, List.forall₂_map_right_iff]
  exact (itemsReadBack?_eq_some.mp h).imp fun _ _ => Item.finished_of_readBack?

namespace Item.Finished

variable {i i' : Item} {attributes : List Attribute} {name : Ident}

theorem of_struct {fields : List StructField}
    (h : (Item.struct attributes name fields).Finished r i') :
    i' = .struct attributes name (fields.map (·.relocate r)) := by
  cases h
  rfl

theorem of_enum {variants : List Variant} (h : (Item.enum attributes name variants).Finished r i') :
    i' = .enum attributes name (variants.map (·.relocate r)) := by
  cases h
  rfl

theorem of_module {inner : List Item} (h : (Item.module attributes name inner).Finished r i') :
    ∃ inner', i' = .module attributes name inner' ∧
      List.Forall₂ (Item.Finished r) inner inner' := by
  cases h with
  | module _ _ hinner => exact ⟨_, rfl, forall₂_finished hinner⟩

theorem of_implementation {self : Ty} {constant : Option Constant} {functions : List Function}
    (h : (Item.implementation self constant functions).Finished r i') :
    ∃ functions',
      i' = .implementation (self.relocate r) (constant.map (·.relocate r)) functions' ∧
        List.Forall₂ (Function.Finished r) functions functions' := by
  cases h with
  | implementation _ _ hf =>
    refine ⟨_, rfl, ?_⟩
    rw [List.forall₂_map_right_iff]
    exact (mapM_some.mp hf).imp fun _ _ => Function.finished_of_readBack?

/-- A client is finished as one if its name is not relocated. -/
theorem of_client {serviceName : String} {functions : List Function}
    (h : (Item.client name (some serviceName) functions).Finished r i')
    (hname : r.lookup name.text = none) :
    ∃ functions', i' = .finishedClient r name serviceName functions' ∧
      List.Forall₂ (Function.Finished r) functions functions' := by
  obtain ⟨functions', rfl, hf⟩ := h.of_implementation
  refine ⟨functions', ?_, hf⟩
  rw [Ty.relocate_named hname]
  rfl

theorem definedName? (h : i.Finished r i') : i'.definedName? = i.definedName? := by
  cases h <;> rfl

theorem isInline (h : i.Finished r i') : i'.isInline = i.isInline := by
  cases h <;> rfl

/-- Only what can name an item does so in a finished file. -/
theorem notMem_keywords {n : String} (h : i.Finished r i') (hn : i.definedName? = some n) :
    n ∉ keywords := by
  cases h <;> cases hn <;> simp_all [Ident.isName]

end Item.Finished

theorem reshapes_finished (r : Relocation) : Reshapes (Item.Finished r) where
  name := Item.Finished.definedName?
  module := Item.Finished.of_module
  ofModule := by
    intro attributes name inner' i h
    cases h
    exact ⟨_, rfl⟩

/-- Every name that leads to a finished item can name one. -/
theorem ItemAt.notMem_keywords {items items' : List Item}
    (h : List.Forall₂ (Item.Finished r) items items') {path : List String} {i : Item}
    (hi : ItemAt items path i) {n : String} (hn : n ∈ path) : n ∉ keywords := by
  induction hi generalizing items' with
  | here hm hname =>
    obtain ⟨i', -, hr⟩ := exists_mem_right h hm
    exact List.mem_singleton.mp hn ▸ hr.notMem_keywords hname
  | inside hm _ ih =>
    obtain ⟨i', -, hr⟩ := exists_mem_right h hm
    rcases List.mem_cons.mp hn with rfl | hn
    · exact hr.notMem_keywords rfl
    · obtain ⟨_, -, hinner⟩ := hr.of_module
      exact ih hinner hn

end SchemaBindings.Code
