import SchemaBindings.Proofs.Code.Finished

/-!
The scopes of a file: its top and the modules that stand in it, with the names that lead to them.
-/

namespace SchemaBindings.Code

/-- The items among which a path stands that is written where the names lead. -/
inductive ScopeAt : List Item → List String → List Item → Prop
  | here {items : List Item} : ScopeAt items [] items
  | inside {items inner scope : List Item} {attributes : List Attribute} {name : Ident}
      {path : List String} (h : .module attributes name inner ∈ items)
      (hs : ScopeAt inner path scope) : ScopeAt items (name.text :: path) scope

variable {items more scope : List Item} {path : List String}

/-- Further items leave the scopes inside modules as they are. -/
theorem ScopeAt.mono (hs : items ⊆ more) (h : ScopeAt items path scope) :
    ∃ scope', ScopeAt more path scope' ∧ scope ⊆ scope' := by
  cases h with
  | here => exact ⟨more, .here, hs⟩
  | inside hm hi => exact ⟨scope, .inside (hs hm) hi, List.Subset.refl _⟩

/-- A scope is made from the scope at the same place. -/
theorem Reshapes.scopeAt_left {R : Item → Item → Prop} (hR : Reshapes R) {items' scope' : List Item}
    (h : List.Forall₂ R items items') (hs : ScopeAt items' path scope') :
    ∃ scope, ScopeAt items path scope ∧ List.Forall₂ R scope scope' := by
  induction hs generalizing items with
  | here => exact ⟨items, .here, h⟩
  | inside hm _ ih =>
    obtain ⟨i, hi, hr⟩ := exists_mem_left h hm
    obtain ⟨inner, rfl⟩ := hR.ofModule hr
    obtain ⟨_, he, hinner⟩ := hR.module hr
    cases he
    obtain ⟨scope, hscope, hrel⟩ := ih hinner
    exact ⟨scope, .inside hi hscope, hrel⟩

theorem Reshapes.scopeAt_right {R : Item → Item → Prop} (hR : Reshapes R) {items' : List Item}
    (h : List.Forall₂ R items items') (hs : ScopeAt items path scope) :
    ∃ scope', ScopeAt items' path scope' ∧ List.Forall₂ R scope scope' := by
  induction hs generalizing items' with
  | here => exact ⟨items', .here, h⟩
  | inside hm _ ih =>
    obtain ⟨i', hi', hr⟩ := exists_mem_right h hm
    obtain ⟨inner', rfl, hinner⟩ := hR.module hr
    obtain ⟨scope', hscope, hrel⟩ := ih hinner
    exact ⟨scope', .inside hi' hscope, hrel⟩

theorem introducedNames_finished {r : Relocation} {items' : List Item}
    (h : List.Forall₂ (Item.Finished r) items items') :
    introducedNames items' = introducedNames items := by
  induction h with
  | nil => rfl
  | @cons i i' _ _ hi _ ih =>
    have himported : i'.importedNames = i.importedNames := by cases hi <;> rfl
    rw [introducedNames, introducedNames, List.flatMap_cons, List.flatMap_cons, himported,
      hi.definedName?]
    exact congrArg _ ih

/-! ## What holds of all names -/

/-- The property holds of every name in every scope. -/
def AllNames (P : String → Prop) (items : List Item) : Prop :=
  ∀ path scope, ScopeAt items path scope → ∀ name ∈ introducedNames scope, P name

namespace AllNames

variable {P : String → Prop}

theorem mk (here : ∀ name ∈ introducedNames items, P name)
    (inside : ∀ attributes name inner, .module attributes name inner ∈ items → AllNames P inner) :
    AllNames P items := by
  intro path scope hs
  cases hs with
  | here => exact here
  | inside hm hi => exact inside _ _ _ hm _ _ hi

theorem append (h : AllNames P items) (h' : AllNames P more) : AllNames P (items ++ more) := by
  refine mk (fun name hn => ?_) fun attributes name inner hm => ?_
  · rw [introducedNames_append] at hn
    exact (List.mem_append.mp hn).elim (h _ _ .here name) (h' _ _ .here name)
  · rcases List.mem_append.mp hm with hm | hm
    · exact fun path scope hs => h _ _ (.inside hm hs)
    · exact fun path scope hs => h' _ _ (.inside hm hs)

theorem struct {attributes : List Attribute} {name : Ident} {fields : List StructField}
    (h : P name.text) : AllNames P [.struct attributes name fields] := by
  refine mk (fun n hn => ?_) fun _ _ _ hm => ?_
  · exact List.mem_singleton.mp (show n ∈ [name.text] from hn) ▸ h
  · cases List.mem_singleton.mp hm

theorem module {attributes : List Attribute} {name : Ident} {inner : List Item} (h : P name.text)
    (hi : AllNames P inner) : AllNames P [.module attributes name inner] := by
  refine mk (fun n hn => ?_) fun _ _ _ hm => ?_
  · exact List.mem_singleton.mp (show n ∈ [name.text] from hn) ▸ h
  · cases List.mem_singleton.mp hm
    exact hi

theorem finished {r : Relocation} {items' : List Item}
    (h : List.Forall₂ (Item.Finished r) items items') (hall : AllNames P items) :
    AllNames P items' := by
  intro path scope' hs
  obtain ⟨scope, hscope, hrel⟩ := (reshapes_finished r).scopeAt_left h hs
  rw [introducedNames_finished hrel]
  exact hall path scope hscope

end AllNames

end SchemaBindings.Code
