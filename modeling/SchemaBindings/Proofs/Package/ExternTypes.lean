import SchemaBindings.Proofs.Code.Settled
import SchemaBindings.Proofs.Package.Scalars
import SchemaBindings.Proofs.Schema.Recursion

/-!
The types of fields that are mapped to types from elsewhere. They are written as they are mapped,
but for what a module moves of them, and they are put into a box by what the schema says of the name
alone: where it defines a message of that name that leads back to the owner of the field.
-/

namespace SchemaBindings

open Code
open Relation (ReflTransGen)

/-! ## Fields that lead back -/

/-- A field of the message `owner` holds a message that leads back to `owner`, as a table records
it. -/
structure SymbolTable.LeadsBack (t : SymbolTable) (owner held : String)
    (cardinality : Cardinality) : Prop where
  single : cardinality ≠ .repeated
  message : ∃ s, t.get? held = some s ∧ s.kind = .message
  leads : ReflTransGen t.Holds held owner

variable {asyncPrefix : String} {files : List SchemaFile} {t : SymbolTable}

/-- A field leads back by what the schema says of it. -/
theorem leadsBack_iff (h : SymbolTable.build files asyncPrefix = .ok t) (hn : DistinctNames files)
    {owner held : String} {cardinality : Cardinality} : t.LeadsBack owner held cardinality ↔
      cardinality ≠ .repeated ∧ DefinesMessage files held ∧
        ReflTransGen (HoldsMessage files) held owner := by
  rw [← (SymbolTable.build_ok h).1.get?_message_iff hn, ← SymbolTable.holds_eq h hn]
  exact ⟨fun hl => ⟨hl.single, hl.message, hl.leads⟩, fun ⟨hs, hm, hl⟩ => ⟨hs, hm, hl⟩⟩

theorem needsBox_iff {c : Binding.Context} {owner held : String} {cardinality : Cardinality} :
    Binding.needsBox c owner held cardinality = true ↔
      c.symbols.LeadsBack owner held cardinality := by
  rw [Binding.needsBox, Bool.and_eq_true, Bool.and_eq_true, bne_iff_ne, Option.any_eq_true,
    SymbolTable.isRecursive_iff]
  constructor
  · rintro ⟨⟨hsingle, s, hs, hkind⟩, hleads⟩
    exact ⟨hsingle, ⟨s, hs, beq_iff_eq.mp hkind⟩, hleads⟩
  · rintro ⟨hsingle, ⟨s, hs, hkind⟩, hleads⟩
    exact ⟨⟨hsingle, s, hs, beq_iff_eq.mpr hkind⟩, hleads⟩

/-! ## Types in boxes -/

/-- No type holds itself, not even relocated, as the argument of a global type. -/
theorem Code.Ty.global_relocate_ne (names : List String) (r : Relocation) (t : Ty) :
    Ty.global names (t.relocate r) ≠ t := by
  induction hn : sizeOf t using Nat.strongRecOn generalizing t with
  | ind n ih =>
    intro h
    -- The argument of the type is the type itself, relocated, and so has the same form.
    have hsize : sizeOf (t.relocate r) < n := by
      rw [← hn]
      conv_rhs => rw [← h]
      simp only [Ty.global, Ty.applied.sizeOf_spec, List.cons.sizeOf_spec]
      omega
    refine ih _ hsize (t.relocate r) rfl ?_
    rw [← Ty.relocate_global, h]

/-- A plain path from the root is not relocated. -/
theorem Code.Ty.relocate_rooted {p : Path} (hp : p.isPlain = true) (hl : p.leading = true)
    (r : Relocation) : (Ty.path p).relocate r = .path p := by
  rw [Ty.relocate_path, Path.mapTypes_of_isPlain _ hp, Path.relocateHead_of_leading hl]

namespace Package

variable {g : Generator} {s : Stages} {f : SchemaFile} {m : GeneratedModule}

/-- The names that a module moves are those of definitions elsewhere, and they are put behind the
paths of the modules that the definitions are in. -/
def MovesDefinitions (g : Generator) (files : List SchemaFile) (moved : Relocation) : Prop :=
  ∀ name target, moved.lookup name = some target →
    ∃ d ∈ definitions files, d.2.head = name ∧ d.2.module.path g.root = .ok target

theorem Assembly.movesDefinitions (a : Assembly g s f m) (h : s.Succeed g files) :
    MovesDefinitions g files a.relocation := by
  intro name target hname
  rcases a.lookup_relocation name with ⟨hnone, -⟩ | ⟨source, found, hentry, hfound, hpath⟩
  · rw [hnone] at hname
    cases hname
  · obtain rfl := Option.some.inj (hfound.symm.trans hname)
    obtain ⟨fullName, symbol, hget, rfl, hhead⟩ :=
      (a.sound.importable name source hentry).definition
    exact ⟨(fullName, symbol), h.describes.mem_definitions hget, hhead, hpath⟩

/-- How the type `emitted` of a field comes from the type `mapped` that its name is mapped to, in a
module that moves names; the field may hold a message that leads back to its owner. -/
structure ComesFrom (leadsBack : Prop) (moved : Relocation) (cardinality : Cardinality)
    (mapped emitted : Ty) : Prop where
  boxed : leadsBack → emitted = Binding.withCardinality
    (.global ["std", "boxed", "Box"] (mapped.relocate moved)) cardinality
  bare : ¬ leadsBack → emitted = Binding.withCardinality (mapped.relocate moved) cardinality
  kept : emitted = Binding.withCardinality mapped cardinality ↔
    ¬ leadsBack ∧ mapped.relocate moved = mapped

theorem Assembly.comesFrom (a : Assembly g s f m) {owner fullName : String} {depth : ℕ}
    {field : SchemaBindings.Field} {emitted : StructField} {mapped : Ty}
    (he : Binding.FieldEmitted (g.context s.symbols f) a.imports owner depth field emitted)
    (htype : field.type = .named fullName) (hmapped : g.types.extern? fullName = some mapped) :
    ComesFrom (s.symbols.LeadsBack owner fullName field.cardinality) a.relocation
      field.cardinality mapped (emitted.relocate a.relocation).type := by
  obtain ⟨element, helement, hemitted⟩ := he.type
  rw [Binding.ElementOf, htype] at helement
  obtain ⟨t, ht, rfl⟩ := helement
  obtain rfl : t = mapped := by
    rw [Binding.Refers, show (g.context s.symbols f).types.extern? fullName = some mapped
      from hmapped] at ht
    exact ht
  have hneeds : Binding.needsBox (g.context s.symbols f) owner fullName field.cardinality = true ↔
      s.symbols.LeadsBack owner fullName field.cardinality := needsBox_iff
  rw [StructField.relocate, hemitted]
  dsimp only
  rw [Binding.relocate_withCardinality]
  by_cases hleads : s.symbols.LeadsBack owner fullName field.cardinality
  · rw [if_pos (hneeds.mpr hleads), Ty.relocate_global]
    refine ⟨fun _ => rfl, fun hnot => absurd hleads hnot, ?_⟩
    rw [withCardinality_inj]
    exact iff_of_false (Ty.global_relocate_ne _ _ _) fun hnot => hnot.1 hleads
  · rw [if_neg (mt hneeds.mp hleads)]
    refine ⟨fun hlead => absurd hlead hleads, fun _ => rfl, ?_⟩
    rw [withCardinality_inj, and_iff_right hleads]

/-- The structure of every message has its fields in order. A field whose name is mapped has the
mapped type, as its cardinality wraps it, exactly if its name does not stand for a message of the
schema that leads back to the owner of the field, and the module moves no name in the type.
Otherwise the type is put into a box, or names in it are put behind the paths of modules that the
package defines them in. -/
theorem mapped_comesFrom {p : Package} (h : generate g files = .ok p) :
    ∃ table, SymbolTable.build files g.settings.asyncPrefix = .ok table ∧
      (DistinctNames files → ∀ owner held cardinality, table.LeadsBack owner held cardinality ↔
        cardinality ≠ .repeated ∧ DefinesMessage files held ∧
          ReflTransGen (HoldsMessage files) held owner) ∧
      ∀ f ∈ files, ∃ m ∈ p.modules, m.source = some f.path ∧
        ∃ moved, MovesDefinitions g files moved ∧ ∀ q ∈ f.placedMessages,
          ∃ here attributes name fields, ScopeAt m.file.items q.parents here ∧
            .struct attributes name fields ∈ here ∧
            List.Forall₂ (fun field emitted => ∀ fullName mapped, field.type = .named fullName →
              g.types.extern? fullName = some mapped →
                ComesFrom (table.LeadsBack q.fullName fullName field.cardinality) moved
                  field.cardinality mapped emitted.type)
              q.message.fields fields := by
  obtain ⟨s, hs, rfl⟩ := generate_ok.mp h
  refine ⟨s.symbols, hs.symbols, fun hn _ _ _ => leadsBack_iff hs.symbols hn, fun f hf => ?_⟩
  obtain ⟨m, hm, ⟨a⟩⟩ := hs.exists_assembly hf
  refine ⟨m, hm, a.source, a.relocation, a.movesDefinitions hs, fun q hq => ?_⟩
  obtain ⟨here, attributes, name, fields, hscope, hstruct, hfields⟩ := a.exists_struct hq
  refine ⟨here, attributes, name, _, hscope, hstruct, ?_⟩
  rw [List.forall₂_map_right_iff]
  exact hfields.imp fun field emitted he fullName mapped htype hmapped =>
    a.comesFrom he htype hmapped

/-- A generator that maps a message to a type from elsewhere. -/
def mappedNode : Generator :=
  { plain with types := ⟨[], [("p.Node", .path (.ofNames true ["tree", "Node"]))]⟩ }

/-- The message itself, which holds itself. -/
def nodes : List SchemaFile :=
  [{ path := "a.proto", package := "p"
     messages := [
       { name := "Node", fields := [{ name := "next", type := .named "p.Node", number := 1 }] }] }]

def nodesSymbols : SymbolTable :=
  (SymbolTable.build nodes "Async").toOption.getD {}

def nodesDrafts : List Draft :=
  (nodes.mapM (draft mappedNode nodesSymbols)).toOption.getD []

theorem exists_generate_nodes : ∃ p, generate mappedNode nodes = .ok p := by
  have hg : Imports.graphOf (importSets nodesDrafts) = [(⟨["a"]⟩, [])] := by decide +kernel
  refine exists_generate_iff.mpr ⟨nodesSymbols, ok_getD {} (by decide +kernel), nodesDrafts,
    ok_getD [] (by decide +kernel), [], rfl, ?_, [], rfl⟩
  dsimp only
  rw [hg, Imports.backEdges_single, Imports.sortedEdges, List.mergeSort_nil]
  exact ⟨_, ok_getD [] (by decide +kernel)⟩

/-- The field of a message that holds itself is put into a box, although it has another type. -/
theorem mapped_comesFrom_node : ∃ p, generate mappedNode nodes = .ok p ∧ ∃ m ∈ p.modules,
    ∃ attributes name emitted, .struct attributes name [emitted] ∈ m.file.items ∧
      emitted.type = .global ["std", "boxed", "Box"] (.path (.ofNames true ["tree", "Node"])) := by
  obtain ⟨p, h⟩ := exists_generate_nodes
  refine ⟨p, h, ?_⟩
  obtain ⟨table, htable, hiff, hall⟩ := mapped_comesFrom h
  have hleads : table.LeadsBack "p.Node" "p.Node" .singular := by
    refine (hiff (by unfold DistinctNames; decide) _ _ _).mpr ⟨by decide, ?_, .refl⟩
    exact ⟨⟨⟨["a"]⟩, ["Node"], .message⟩, by decide, rfl⟩
  obtain ⟨m, hm, -, moved, -, hmessages⟩ := hall _ List.mem_cons_self
  obtain ⟨here, attributes, name, fields, hscope, hstruct, hfields⟩ :=
    hmessages _ (mem_placedMessages_cons.mpr (.inl (mem_placed.mpr (.inl rfl))))
  cases hscope with
  | here =>
    obtain ⟨emitted, _, hfield, hnil, rfl⟩ := List.forall₂_cons_left_iff.mp hfields
    cases hnil
    refine ⟨m, hm, attributes, name, emitted, hstruct, ?_⟩
    rw [(hfield "p.Node" _ rfl rfl).boxed hleads, Ty.relocate_rooted rfl rfl]
    rfl

end Package

end SchemaBindings
