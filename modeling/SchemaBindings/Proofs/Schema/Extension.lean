import SchemaBindings.Proofs.Schema.Containment

/-!
The tables of two schemas, one of which has all files of the other one. Of the files that they share
both say the same: what their references lead to, which names their modules have, and which of
their messages are recursive.
-/

namespace SchemaBindings.SymbolTable

open Relation (ReflTransGen)

/-- A table says the same as another one of all that a module refers to. References that are mapped
to types of their own may stay without a definition. -/
structure Extends (mapped : String → Prop) (t t' : SymbolTable) (module : ModuleId) : Prop where
  get? : ∀ fullName, mapped fullName ∨ (t.get? fullName).isSome →
    t'.get? fullName = t.get? fullName
  isLocal : ∀ name, t'.isLocal module name = t.isLocal module name
  isRecursive : ∀ owner target, (t.get? target).isSome →
    t'.isRecursive owner target = t.isRecursive owner target

theorem definitions_subset {files more : List SchemaFile} (h : files ⊆ more) :
    definitions files ⊆ definitions more := by
  intro d hd
  obtain ⟨f, hf, hdefines⟩ := mem_definitions.mp hd
  exact mem_definitions.mpr ⟨f, h hf, hdefines⟩

theorem placed_subset {files more : List SchemaFile} (h : files ⊆ more) :
    placed files ⊆ placed more := by
  intro p hp
  obtain ⟨f, hf, hp⟩ := List.mem_flatMap.mp hp
  exact List.mem_flatMap.mpr ⟨f, h hf, hp⟩

/-- The table of a schema in which no full name is defined twice. -/
structure IsTableOf (asyncPrefix : String) (t : SymbolTable) (files : List SchemaFile) : Prop where
  describes : t.Describes asyncPrefix files
  distinct : DistinctNames files
  holds : ∀ x y, t.Holds x y ↔ ∃ p ∈ placed files, p.fullName = x ∧ t.HeldBy p y

theorem IsTableOf.of_build {asyncPrefix : String} {t : SymbolTable} {files : List SchemaFile}
    (h : build files asyncPrefix = .ok t) (hn : DistinctNames files) :
    t.IsTableOf asyncPrefix files :=
  ⟨(build_ok h).1, hn, (build_ok h).2 hn⟩

/-- Only messages that are defined are held. -/
theorem IsTableOf.isSome_of_holds {asyncPrefix : String} {t : SymbolTable}
    {files : List SchemaFile} (h : t.IsTableOf asyncPrefix files) {owner held : String}
    (hh : t.Holds owner held) : (t.get? held).isSome := by
  obtain ⟨p, -, -, field, -, hheld⟩ := (h.holds owner held).mp hh
  obtain ⟨-, -, s, hs, -⟩ := heldMessage?_eq_some.mp hheld
  exact Option.isSome_iff_exists.mpr ⟨s, hs⟩

/-- A schema and a larger one, with their tables. In the smaller one every field refers to a
definition or to a name that is mapped, and the larger one defines no more names that are. -/
structure Enlarges (asyncPrefix : String) (mapped : String → Prop) (files more : List SchemaFile)
    (t t' : SymbolTable) : Prop where
  table : t.IsTableOf asyncPrefix files
  table' : t'.IsTableOf asyncPrefix more
  subset : files ⊆ more
  resolves : ∀ p ∈ placed files, ∀ field ∈ p.message.fields, ∀ fullName,
    field.type = .named fullName → mapped fullName ∨ (t.get? fullName).isSome
  mapped : ∀ d ∈ definitions more, mapped d.1 → d ∈ definitions files

namespace Enlarges

variable {asyncPrefix : String} {mapped : String → Prop} {t t' : SymbolTable}
  {files more : List SchemaFile}

theorem get?_eq (h : Enlarges asyncPrefix mapped files more t t') {fullName : String}
    (hk : mapped fullName ∨ (t.get? fullName).isSome) : t'.get? fullName = t.get? fullName := by
  cases hs : t.get? fullName with
  | some s =>
    rw [h.table.describes.get?_eq_some h.table.distinct] at hs
    rw [h.table'.describes.get?_eq_some h.table'.distinct]
    exact definitions_subset h.subset hs
  | none =>
    cases hs' : t'.get? fullName with
    | none => rfl
    | some s =>
      have hdef := (h.table'.describes.get?_eq_some h.table'.distinct).mp hs'
      have hm : mapped fullName := hk.resolve_right (by simp [hs])
      rw [(h.table.describes.get?_eq_some h.table.distinct).mpr (h.mapped _ hdef hm)] at hs
      cases hs

theorem isLocal_eq (h : Enlarges asyncPrefix mapped files more t t') {f : SchemaFile}
    (hf : f ∈ files) (name : String) : t'.isLocal f.module name = t.isLocal f.module name := by
  rw [Bool.eq_iff_iff, h.table.describes.isLocal, h.table'.describes.isLocal]
  constructor
  · rintro ⟨f', hf', hmodule, hname⟩
    exact ⟨f, hf, rfl, h.table'.describes.eq_of_module hf' (h.subset hf) hmodule ▸ hname⟩
  · rintro ⟨f', hf', hmodule, hname⟩
    exact ⟨f', h.subset hf', hmodule, hname⟩

/-! ## Messages that hold others -/

theorem heldBy_iff (h : Enlarges asyncPrefix mapped files more t t') {p : PlacedMessage}
    (hp : p ∈ placed files) (held : String) : t'.HeldBy p held ↔ t.HeldBy p held := by
  refine exists_congr fun field => and_congr_right fun hfield => ?_
  unfold heldMessage?
  split
  · exact Iff.rfl
  · next fullName htype => rw [h.get?_eq (h.resolves p hp field hfield fullName htype)]

/-- A message that both schemas define is one message of one file. -/
theorem mem_placed (h : Enlarges asyncPrefix mapped files more t t') {p : PlacedMessage}
    (hp : p ∈ placed more) (hk : (t.get? p.fullName).isSome) : p ∈ placed files := by
  obtain ⟨s, hs⟩ := Option.isSome_iff_exists.mp hk
  rw [h.table.describes.get?_eq_some h.table.distinct] at hs
  obtain ⟨f, hf, hdefines⟩ := mem_definitions.mp hs
  obtain ⟨f', hf', hp⟩ := List.mem_flatMap.mp hp
  have hdef' : (p.fullName, ⟨f'.module, p.path, .message⟩) ∈ definitions more :=
    mem_definitions.mpr ⟨f', hf', .message p hp⟩
  have hmodule : f.module = f'.module := by
    rw [← hdefines.module, eq_of_mem h.table'.distinct (definitions_subset h.subset hs) hdef']
  obtain rfl := h.table'.describes.eq_of_module (h.subset hf) hf' hmodule
  exact List.mem_flatMap.mpr ⟨f, hf, hp⟩

/-- What a message of the smaller schema holds. -/
theorem holds_iff (h : Enlarges asyncPrefix mapped files more t t') {owner : String}
    (hk : (t.get? owner).isSome) (held : String) : t'.Holds owner held ↔ t.Holds owner held := by
  rw [h.table.holds, h.table'.holds]
  constructor
  · rintro ⟨p, hp, rfl, hheld⟩
    have hp := h.mem_placed hp hk
    exact ⟨p, hp, rfl, (h.heldBy_iff hp held).mp hheld⟩
  · rintro ⟨p, hp, hname, hheld⟩
    exact ⟨p, placed_subset h.subset hp, hname, (h.heldBy_iff hp held).mpr hheld⟩

theorem isRecursive_eq (h : Enlarges asyncPrefix mapped files more t t') {owner target : String}
    (hk : (t.get? target).isSome) : t'.isRecursive owner target = t.isRecursive owner target := by
  -- along chains of messages that hold each other, which never leave the smaller schema
  have follow {r r' : String → String → Prop} (hstep : ∀ x, (t.get? x).isSome → ∀ y, r x y →
      r' x y ∧ (t.get? y).isSome) {x : String} (hk : (t.get? x).isSome)
      (hlead : ReflTransGen r x owner) : ReflTransGen r' x owner := by
    induction hlead using ReflTransGen.head_induction_on with
    | refl => exact .refl
    | head hxy _ ih =>
      obtain ⟨hxy', hy⟩ := hstep _ hk _ hxy
      exact .head hxy' (ih hy)
  rw [Bool.eq_iff_iff, isRecursive_iff, isRecursive_iff]
  constructor
  · refine follow (fun x hx y hxy => ?_) hk
    have hxy := (h.holds_iff hx y).mp hxy
    exact ⟨hxy, h.table.isSome_of_holds hxy⟩
  · refine follow (fun x hx y hxy => ?_) hk
    exact ⟨(h.holds_iff hx y).mpr hxy, h.table.isSome_of_holds hxy⟩

/-- The table of the larger schema says the same of the files of the smaller one. -/
theorem extends_module (h : Enlarges asyncPrefix mapped files more t t') {f : SchemaFile}
    (hf : f ∈ files) : Extends mapped t t' f.module where
  get? _ := h.get?_eq
  isLocal := h.isLocal_eq hf
  isRecursive _ _ := h.isRecursive_eq

end Enlarges

end SchemaBindings.SymbolTable
