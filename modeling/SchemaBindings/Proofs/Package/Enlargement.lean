import SchemaBindings.Proofs.Binding.Extension
import SchemaBindings.Proofs.Package.Paths
import SchemaBindings.Proofs.Schema.Building

/-!
Schemas that take up another one: the files of the other one are drafted and finished in the same
way as before.
-/

namespace SchemaBindings

open Code

theorem DistinctNames.perm {files files' : List SchemaFile} (h : DistinctNames files)
    (hp : files.Perm files') : DistinctNames files' :=
  ((hp.flatMap_right _).map _).nodup_iff.mp h

namespace Package

variable {g : Generator} {files more : List SchemaFile} {s : Stages} {t t' : SymbolTable}
  {f : SchemaFile}

/-- A schema that a package was generated from, in a larger one with a table of its own. -/
abbrev Enlarges (g : Generator) (files more : List SchemaFile) (t t' : SymbolTable) : Prop :=
  SymbolTable.Enlarges g.settings.asyncPrefix (fun fullName => (g.types.extern? fullName).isSome)
    files more t t'

/-- Every field refers to a definition of the schema, unless its type is mapped. -/
theorem Stages.Succeed.resolves (h : s.Succeed g files) (hn : DistinctNames files) :
    ∀ p ∈ SymbolTable.placed files, ∀ field ∈ p.message.fields, ∀ fullName,
      field.type = .named fullName →
        (g.types.extern? fullName).isSome ∨ (s.symbols.get? fullName).isSome := by
  intro p hp field hfield fullName htype
  obtain ⟨f, hf, hp⟩ := List.mem_flatMap.mp hp
  obtain ⟨m, -, ⟨e⟩⟩ := h.exists_emission hn hf
  obtain ⟨_, _, _, -, hfields⟩ := e.mirrored.messages.structs p hp
  obtain ⟨emitted, -, hemitted⟩ := exists_mem_right hfields hfield
  obtain ⟨element, helement, -⟩ := hemitted.type
  rw [Binding.ElementOf, htype] at helement
  obtain ⟨ty, hrefers, -⟩ := helement
  unfold Binding.Refers at hrefers
  split at hrefers
  · next hmapped => exact .inl (Option.isSome_of_eq_some hmapped)
  · obtain ⟨s, hs, -⟩ := hrefers
    exact .inr (Option.isSome_of_eq_some hs)

theorem Stages.Succeed.enlarges (h : s.Succeed g files) (hn : DistinctNames files)
    (hmore : SymbolTable.build more g.settings.asyncPrefix = .ok t') (hn' : DistinctNames more)
    (hsub : files ⊆ more) (hmapped : ∀ d ∈ definitions more, (g.types.extern? d.1).isSome →
      d ∈ definitions files) : Enlarges g files more s.symbols t' where
  table := .of_build h.symbols hn
  table' := .of_build hmore hn'
  subset := hsub
  resolves := h.resolves hn
  mapped := hmapped

/-- The draft of a file stays what it is. -/
theorem Enlarges.draft_eq (h : Enlarges g files more t t') (hf : f ∈ files) {d : Draft}
    (hd : draft g t f = .ok d) : draft g t' f = .ok d := by
  have hkeeps : Keeps (draft g t f) (draft g t' f) :=
    .bind (Binding.moduleFile_keeps (h.extends_module hf) f {}) fun r => .refl _
  exact hkeeps d hd

/-- Finished modules depend on nothing but their imports and their child modules. -/
theorem finish_congr {root : Path} {r r' : Imports.Resolution} {index index' : Index} {d : Draft}
    (hr : r.modules.lookup d.module = r'.modules.lookup d.module)
    (hindex : index.lookup d.module = index'.lookup d.module) :
    finish root r index d = finish root r' index' d := by
  rw [finish, finish, hr, hindex]

end Package

end SchemaBindings
