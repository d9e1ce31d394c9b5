import SchemaBindings.Proofs.Package.Assembly

/-!
The structures of a package have a finite size: no structure holds itself within itself, through
however many others. Every cycle of messages that hold each other is cut by a box.
-/

namespace SchemaBindings

open Code
open Relation (TransGen ReflTransGen)

/-- The argument of the type that a global path names. -/
def Code.Ty.globalArg? (names : List String) : Ty → Option Ty
  | .applied p [t] => if p.leading && p.names == names then some t else none
  | _ => none

theorem Code.Ty.globalArg?_global (names names' : List String) (t : Ty) :
    (Ty.global names t).globalArg? names' = if names = names' then some t else none := by
  rw [global, globalArg?, Path.names_ofNames]
  simp [Path.ofNames, Path.leading]

/-- Whether a value of the type lies within the structure that has it. What an option holds does,
what a box or a vector holds does not. -/
def Code.Ty.liesWithin (t : Ty) : Bool :=
  let held := (t.globalArg? ["core", "option", "Option"]).getD t
  (held.globalArg? ["std", "boxed", "Box"]).isNone &&
    (held.globalArg? ["std", "vec", "Vec"]).isNone

namespace Package

/-- The structure of message `a` holds that of message `b` within itself: in the module of the file
of `a` a field has the type of `b`, which is mapped to no other type. -/
def HoldsInline (g : Generator) (files : List SchemaFile) (p : Package) (a b : String) : Prop :=
  ∃ f ∈ files, ∃ q ∈ f.placedMessages, q.fullName = a ∧
    ∃ m ∈ p.modules, m.source = some f.path ∧
      ∃ attributes name fields, ItemAt m.file.items q.path (.struct attributes name fields) ∧
        ∃ x ∈ q.message.fields.zip fields, x.1.type = .named b ∧ g.types.extern? b = none ∧
          (∃ s, (b, s) ∈ definitions files ∧ s.kind = .message) ∧ x.2.type.liesWithin = true

variable {g : Generator} {files : List SchemaFile} {p : Package} {s : Stages}

/-- What lies within a structure is neither repeated nor boxed. -/
theorem of_liesWithin {c : Binding.Context} {final : ImportSet} {owner held : String}
    {depth : Nat} {field : SchemaBindings.Field} {emitted : StructField} {r : Relocation}
    (he : Binding.FieldEmitted c final owner depth field emitted) (ht : field.type = .named held)
    (hw : (emitted.relocate r).type.liesWithin = true) :
    field.cardinality ≠ .repeated ∧
      Binding.needsBox c owner held field.cardinality = false := by
  obtain ⟨element, helement, htype⟩ := he.type
  rw [StructField.relocate, htype] at hw
  rw [Binding.ElementOf, ht] at helement
  obtain ⟨t, -, rfl⟩ := helement
  by_cases hbox : Binding.needsBox c owner held field.cardinality = true
  · rw [if_pos hbox] at hw
    cases hc : field.cardinality <;>
      simp [hc, Binding.withCardinality, Ty.relocate_global, Ty.liesWithin,
        Ty.globalArg?_global] at hw
  · refine ⟨fun hc => ?_, Bool.eq_false_iff.mpr hbox⟩
    simp [hc, Binding.withCardinality, Ty.relocate_global, Ty.liesWithin,
      Ty.globalArg?_global] at hw

/-- What a structure holds within itself is recorded to be held, and does not lead back to it. -/
theorem holds_of_holdsInline (h : s.Succeed g files) (hn : DistinctNames files) {a b : String}
    (hab : HoldsInline g files s.package a b) :
    s.symbols.Holds a b ∧ ¬ ReflTransGen s.symbols.Holds b a := by
  obtain ⟨f, hf, q, hq, rfl, m, hm, hsource, attributes, name, fields, hstruct, ⟨x, y⟩, hxy, hb,
    -, ⟨symbol, hsymbol, hkind⟩, hwithin⟩ := hab
  obtain ⟨hd, hholds⟩ := SymbolTable.build_ok h.symbols
  obtain ⟨e⟩ := h.emission_of_source hn hf hm hsource
  obtain ⟨_, _, raw, hraw, hiff⟩ := e.struct_iff (hd.claimed f hf) hq
  obtain ⟨-, -, rfl⟩ := (hiff _ _ _).mp hstruct
  obtain ⟨field, hzip, rfl⟩ : ∃ field, (x, field) ∈ q.message.fields.zip raw ∧
      y = field.relocate e.relocation := by
    rw [List.zip_map_right] at hxy
    obtain ⟨⟨x', field⟩, hzip, he⟩ := List.mem_map.mp hxy
    cases he
    exact ⟨field, hzip, rfl⟩
  dsimp only at hb hwithin
  obtain ⟨hcardinality, hbox⟩ := of_liesWithin (List.forall₂_zip hraw hzip) hb hwithin
  have hget : s.symbols.get? b = some symbol := (hd.get?_eq_some hn).mpr hsymbol
  have hmessage : (s.symbols.get? b).any (·.kind == .message) = true := by
    rw [hget, Option.any_some, hkind]
    rfl
  have hx : x ∈ q.message.fields := (List.of_mem_zip hzip).1
  refine ⟨?_, ?_⟩
  · rw [hholds hn]
    refine ⟨q, List.mem_flatMap.mpr ⟨f, hf, hq⟩, rfl, x, hx, ?_⟩
    exact SymbolTable.heldMessage?_eq_some.mpr ⟨hb, hcardinality, symbol, hget, hkind⟩
  · rw [← SymbolTable.isRecursive_iff]
    intro hrecursive
    have hneeds : Binding.needsBox (g.context s.symbols f) q.fullName b x.cardinality = true := by
      rw [Binding.needsBox, Bool.and_eq_true, Bool.and_eq_true, bne_iff_ne]
      exact ⟨⟨hcardinality, hmessage⟩, hrecursive⟩
    exact Bool.false_ne_true (hbox.symm.trans hneeds)

/-! ## Main result -/

/-- In a generated package every message has its structure, and no structure holds itself within
itself, be it directly or through other structures. -/
theorem holdsInline_acyclic (hn : DistinctNames files) (h : generate g files = .ok p) :
    (∀ f ∈ files, ∀ q ∈ f.placedMessages, ∃ m ∈ p.modules, m.source = some f.path ∧
      ∃ attributes name fields, ItemAt m.file.items q.path (.struct attributes name fields) ∧
        fields.length = q.message.fields.length) ∧
      Acyclic (HoldsInline g files p) := by
  obtain ⟨s, hs, rfl⟩ := generate_ok.mp h
  refine ⟨?_, ?_⟩
  · intro f hf q hq
    obtain ⟨m, hm, ⟨e⟩⟩ := hs.exists_emission hn hf
    obtain ⟨attributes, name, fields, hall, hiff⟩ := e.struct_iff (hs.describes.claimed f hf) hq
    refine ⟨m, hm, e.source, attributes, name, _, (hiff _ _ _).mpr ⟨rfl, rfl, rfl⟩, ?_⟩
    rw [List.length_map, hall.length_eq]
  · intro a ha
    obtain ⟨b, hab, hba⟩ := TransGen.head'_iff.mp ha
    refine (holds_of_holdsInline hs hn hab).2 ?_
    exact ReflTransGen.mono (fun _ _ h => (holds_of_holdsInline hs hn h).1) _ _ hba

theorem holdsInline_acyclic_crossing : DistinctNames crossing ∧
    ∃ p, generate plain crossing = .ok p ∧
      (∀ f ∈ crossing, ∀ q ∈ f.placedMessages, ∃ m ∈ p.modules, m.source = some f.path ∧
        ∃ attributes name fields, ItemAt m.file.items q.path (.struct attributes name fields) ∧
          fields.length = q.message.fields.length) ∧
        Acyclic (HoldsInline plain crossing p) := by
  obtain ⟨p, h⟩ := exists_generate_crossing
  exact ⟨distinctNames_crossing, p, h, holdsInline_acyclic distinctNames_crossing h⟩

end Package

end SchemaBindings
