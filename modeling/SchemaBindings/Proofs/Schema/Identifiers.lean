import SchemaBindings.Proofs.Naming.Identifiers
import SchemaBindings.Proofs.Schema.Registration

/-!
Schemas of identifiers. Their definitions get usable names as long as none of their types is called
by an underscore alone.
-/

namespace SchemaBindings

open Naming

/-! ## Schemas of identifiers -/

structure Enum.HasIdentifiers (e : Enum) : Prop where
  name : isIdentifier e.name = true
  values : ∀ v ∈ e.values, isIdentifier v.label = true

/-- The names of a message, but for those of the messages nested in it. -/
structure Message.HasIdentifiers (m : Message) : Prop where
  name : isIdentifier m.name = true
  fields : ∀ f ∈ m.fields, isIdentifier f.name = true
  enums : ∀ e ∈ m.enums, e.HasIdentifiers

structure Service.HasIdentifiers (s : Service) : Prop where
  name : isIdentifier s.name = true
  methods : ∀ m ∈ s.methods, isIdentifier m.name = true

/-- The path of a file is written in ASCII and everything that has a name has an identifier. -/
structure SchemaFile.HasIdentifiers (f : SchemaFile) : Prop where
  path : ∀ c ∈ f.path.toList, c.toNat < 128
  enums : ∀ e ∈ f.enums, e.HasIdentifiers
  messages : ∀ p ∈ f.placedMessages, p.message.HasIdentifiers
  services : ∀ s ∈ f.services, s.HasIdentifiers

instance (e : Enum) : Decidable e.HasIdentifiers :=
  decidable_of_iff (isIdentifier e.name = true ∧ ∀ v ∈ e.values, isIdentifier v.label = true)
    ⟨fun h => ⟨h.1, h.2⟩, fun h => ⟨h.name, h.values⟩⟩

instance (m : Message) : Decidable m.HasIdentifiers :=
  decidable_of_iff (isIdentifier m.name = true ∧ (∀ f ∈ m.fields, isIdentifier f.name = true) ∧
      ∀ e ∈ m.enums, e.HasIdentifiers)
    ⟨fun h => ⟨h.1, h.2.1, h.2.2⟩, fun h => ⟨h.name, h.fields, h.enums⟩⟩

instance (s : Service) : Decidable s.HasIdentifiers :=
  decidable_of_iff (isIdentifier s.name = true ∧ ∀ m ∈ s.methods, isIdentifier m.name = true)
    ⟨fun h => ⟨h.1, h.2⟩, fun h => ⟨h.name, h.methods⟩⟩

instance (f : SchemaFile) : Decidable f.HasIdentifiers :=
  -- The characters are tested one by one, for there is also an instance that tries all of them.
  decidable_of_iff ((f.path.toList.all fun c => decide (c.toNat < 128)) = true ∧
      (∀ e ∈ f.enums, e.HasIdentifiers) ∧
      (∀ p ∈ f.placedMessages, p.message.HasIdentifiers) ∧ ∀ s ∈ f.services, s.HasIdentifiers)
    ⟨fun h => ⟨by simpa using h.1, h.2.1, h.2.2.1, h.2.2.2⟩,
      fun h => ⟨by simpa using h.path, h.enums, h.messages, h.services⟩⟩

/-- The names of the messages, enums and services of a file. -/
def SchemaFile.typeNames (f : SchemaFile) : List String :=
  f.enums.map (·.name) ++
    f.placedMessages.flatMap (fun p => p.message.name :: p.message.enums.map (·.name)) ++
      f.services.map (·.name)

theorem SchemaFile.mem_typeNames {f : SchemaFile} {name : String} :
    name ∈ f.typeNames ↔ (∃ e ∈ f.enums, e.name = name) ∨
      (∃ p ∈ f.placedMessages, p.message.name = name ∨ ∃ e ∈ p.message.enums, e.name = name) ∨
        ∃ s ∈ f.services, s.name = name := by
  simp [typeNames, eq_comm]

/-! ## Usable definitions -/

/-- Every name on the way to a definition is usable. -/
structure Symbol.IsUsable (s : Symbol) : Prop where
  nonempty : s.path ≠ []
  path : ∀ name ∈ s.path, Naming.IsUsable name
  module : ∀ name ∈ s.module.segments, Naming.IsUsable name

namespace Symbol.IsUsable

variable {s : Symbol}

theorem ofLast {module : ModuleId} {parents : List String} {last : String} {kind : SymbolKind}
    (hm : ∀ name ∈ module.segments, Naming.IsUsable name)
    (hp : ∀ name ∈ parents, Naming.IsUsable name) (hl : Naming.IsUsable last) :
    Symbol.IsUsable ⟨module, parents ++ [last], kind⟩ where
  nonempty := List.append_ne_nil_of_right_ne_nil _ (List.cons_ne_nil _ _)
  path := List.forall_mem_append.mpr ⟨hp, List.forall_mem_singleton.mpr hl⟩
  module := hm

theorem name (h : s.IsUsable) : Naming.IsUsable s.name := by
  have hlast : s.name = s.path.getLast h.nonempty := by
    rw [Symbol.name, List.getLast?_eq_some_getLast h.nonempty, Option.getD_some]
  exact hlast ▸ h.path _ (List.getLast_mem h.nonempty)

theorem head (h : s.IsUsable) : Naming.IsUsable s.head := by
  have hfirst : s.head = s.path.head h.nonempty := by
    rw [Symbol.head, List.head?_eq_some_head h.nonempty, Option.getD_some]
  exact hfirst ▸ h.path _ (List.head_mem h.nonempty)

end Symbol.IsUsable

variable {files : List SchemaFile} {f : SchemaFile}

theorem SchemaFile.isUsable_parents (h : f.HasIdentifiers) {p : PlacedMessage}
    (hp : p ∈ f.placedMessages) : ∀ name ∈ p.parents, IsUsable name := by
  intro name hn
  obtain ⟨q, hq, -, hname⟩ := exists_of_mem_parents f.messages hp hn
  rw [hname]
  exact isUsable_moduleName (ascii_of_isIdentifier (h.messages q hq).name)

/-- What a file of identifiers defines is usable, as no type is called by an underscore. -/
theorem SchemaFile.isUsable_of_defines (h : f.HasIdentifiers) (hn : "_" ∉ f.typeNames)
    {d : Definition} (hd : f.Defines d) : d.2.IsUsable := by
  have htype {name : String} (hmem : name ∈ f.typeNames) (hname : isIdentifier name = true) :
      IsUsable (typeName name) := isUsable_typeName hname (ne_of_mem_of_not_mem hmem hn)
  have hmodule := isUsable_segments h.path
  cases hd with
  | enum e he =>
    have hname := htype (mem_typeNames.mpr (.inl ⟨e, he, rfl⟩)) (h.enums e he).name
    exact .ofLast hmodule (List.forall_mem_nil _) hname
  | message p hp =>
    have hname := htype (mem_typeNames.mpr (.inr (.inl ⟨p, hp, .inl rfl⟩))) (h.messages p hp).name
    exact .ofLast hmodule (isUsable_parents h hp) hname
  | nestedEnum p hp e he =>
    have hname := htype (mem_typeNames.mpr (.inr (.inl ⟨p, hp, .inr ⟨e, he, rfl⟩⟩)))
      ((h.messages p hp).enums e he).name
    have hnested := isUsable_moduleName (ascii_of_isIdentifier (h.messages p hp).name)
    have hinner : ∀ name ∈ p.inner, IsUsable name :=
      List.forall_mem_append.mpr ⟨isUsable_parents h hp, List.forall_mem_singleton.mpr hnested⟩
    exact .ofLast hmodule hinner hname

/-- Schemas of identifiers without a type that is called by an underscore. -/
structure HasUsableNames (files : List SchemaFile) : Prop where
  identifiers : ∀ f ∈ files, f.HasIdentifiers
  types : ∀ f ∈ files, "_" ∉ f.typeNames

theorem HasUsableNames.ofDefinition (h : HasUsableNames files) {d : Definition}
    (hd : d ∈ definitions files) : d.2.IsUsable := by
  obtain ⟨f, hf, hdefines⟩ := mem_definitions.mp hd
  exact SchemaFile.isUsable_of_defines (h.identifiers f hf) (h.types f hf) hdefines

/-- No identifier has a dot in it. -/
theorem unambiguous_of_identifiers (h : ∀ f ∈ files, f.HasIdentifiers) : Unambiguous files := by
  have hdot {name : String} (hn : isIdentifier name = true) : '.' ∉ name.toList := fun hmem => by
    cases forall_part hn '.' hmem
  refine unambiguous_of_dotless fun f hf => ⟨fun e he => hdot ((h f hf).enums e he).name, ?_⟩
  intro p hp
  have hm := (h f hf).messages p hp
  exact ⟨hdot hm.name, fun e he => hdot (hm.enums e he).name⟩

end SchemaBindings
