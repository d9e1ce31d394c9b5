import SchemaBindings.Proofs.Binding.Call
import SchemaBindings.Proofs.Binding.Message
import SchemaBindings.Proofs.Code.Paths
import SchemaBindings.Proofs.Naming.Underscores
import SchemaBindings.Proofs.Schema.Definitions

/-!
The structures of messages field by field: which number, marks, type and name the field of a
structure has, and which structure stands for which message.
-/

namespace SchemaBindings

open Code

/-! ## Structures at their places -/

namespace Code

/-- A structure with the names of the modules around it. -/
structure PlacedStruct where
  parents : List String
  name : Ident
  fields : List StructField

/-- The structure one module further inside. -/
def PlacedStruct.inside (module : String) (s : PlacedStruct) : PlacedStruct :=
  { s with parents := module :: s.parents }

mutual

/-- The structures of an item in the order in which they are written. -/
def Item.structs : Item → List PlacedStruct
  | .struct _ name fields => [⟨[], name, fields⟩]
  | .module _ name items => (structsOf items).map (·.inside name.text)
  | .use .. | .moduleFile .. | .unit .. | .enum .. | .implementation .. | .other .. =>
    []

def structsOf : List Item → List PlacedStruct
  | [] => []
  | i :: rest => i.structs ++ structsOf rest

end

theorem structsOf_append (items more : List Item) :
    structsOf (items ++ more) = structsOf items ++ structsOf more := by
  induction items with
  | nil => rfl
  | cons i rest ih => rw [List.cons_append, structsOf, structsOf, ih, List.append_assoc]

/-- The structures of a structure with a module behind it. -/
theorem structsOf_struct_module {attributes moduleAttributes : List Attribute} {name module : Ident}
    {fields : List StructField} {items : List Item} :
    structsOf [.struct attributes name fields, .module moduleAttributes module items] =
      ⟨[], name, fields⟩ :: (structsOf items).map (·.inside module.text) := by
  simp [structsOf, Item.structs]

end Code

namespace Binding

variable {c : Context} {owner scope : String} {depth : Nat} {notes notes' : Notes}

/-! ## Fields -/

/-- What the arguments of the attribute of a field say: its wire number, and behind that whether
the field is optional and which group it belongs to. -/
structure Tells (f : SchemaBindings.Field) (args : List AttributeArg) : Prop where
  number : args.head? = some (.literal (toString f.number))
  optional : .path (.ofNames false ["optional"]) ∈ args ↔ f.cardinality = .optional
  oneof : ∀ group, .setting "oneof" group ∈ args ↔
    f.cardinality = .optional ∧ f.oneof.map quoted = some group
  nothing : ∀ arg ∈ args.tail, arg = .path (.ofNames false ["optional"]) ∨
    ∃ group, arg = .setting "oneof" group

/-- The type of one element of a field: the one that its scalar is mapped to, or a reference, which
may be boxed. -/
inductive HasElement (c : Context) (owner : String) (depth : Nat) (f : SchemaBindings.Field) :
    Ty → Prop
  | scalar {kind : String} {t : Ty} (hf : f.type = .scalar kind)
      (ht : c.types.scalar? kind = some t) : HasElement c owner depth f t
  | plain {fullName : String} {t : Ty} {before after : Notes} (hf : f.type = .named fullName)
      (ht : (reference? c fullName depth).run before = .ok (some t, after))
      (hb : needsBox c owner fullName f.cardinality = false) : HasElement c owner depth f t
  | boxed {fullName : String} {t : Ty} {before after : Notes} (hf : f.type = .named fullName)
      (ht : (reference? c fullName depth).run before = .ok (some t, after))
      (hb : needsBox c owner fullName f.cardinality = true) :
    HasElement c owner depth f (.global ["std", "boxed", "Box"] t)

/-- The field that is made for a field of the message `owner`, whose structure stands `depth` levels
inside the file. -/
structure FieldMade (c : Context) (owner : String) (depth : Nat) (f : SchemaBindings.Field)
    (made : StructField) : Prop where
  attributes : ∃ args, Tells f args ∧ made.attributes =
    docAttributes f.docs ++ [.call (.mk false [.mk c.library.fieldAttribute .none]) args]
  type : ∃ element, HasElement c owner depth f element ∧
    made.type = withCardinality element f.cardinality
  name : ∃ count, made.name.text = Naming.withUnderscores (Naming.fieldName f.name) count

/-- The fields that are made for all fields of a message: one for each of them in their order, and
no two of the same name. -/
structure FieldsMade (c : Context) (owner : String) (depth : Nat)
    (fields : List SchemaBindings.Field) (made : List StructField) : Prop where
  each : List.Forall₂ (FieldMade c owner depth) fields made
  distinct : (made.map (·.name.text)).Nodup

theorem tells_fieldMarks (f : SchemaBindings.Field) :
    Tells f (.literal (toString f.number) :: fieldMarks f) := by
  constructor <;> rcases f with ⟨_, _, _ | _ | _, _, _ | _, _⟩ <;>
    simp [fieldMarks, eq_comm]

theorem elementType_made {f : SchemaBindings.Field} {element : Ty}
    (h : (elementType c owner depth f).run notes = .ok (element, notes')) :
    HasElement c owner depth f element := by
  unfold elementType at h
  split at h
  · next kind hf =>
    split at h
    · next t ht =>
      cases h
      exact .scalar hf ht
    · cases h
  · next fullName hf =>
    obtain ⟨o, _, ho, h⟩ := run_bind_ok.mp h
    cases o with
    | none => cases h
    | some t =>
      dsimp only at h
      split at h <;> cases h
      · next hb => exact .boxed hf ho hb
      · next hb => exact .plain hf ho (Bool.eq_false_iff.mpr hb)

/-- One field is made for each, under the names that the table gives. -/
theorem structFields_each {fields : List SchemaBindings.Field} {names : Naming.Table}
    {made : List StructField}
    (h : (structFields c owner depth fields names).run notes = .ok (made, notes')) :
    List.Forall₂ (FieldMade c owner depth) fields made ∧
      made.map (·.name.text) = names.assignEach (fields.map fun f => Naming.fieldName f.name) := by
  induction fields generalizing names made notes with
  | nil =>
    cases h
    exact ⟨.nil, rfl⟩
  | cons f rest ih =>
    rw [structFields] at h
    obtain ⟨first, _, hfirst, h⟩ := run_bind_ok.mp h
    obtain ⟨others, _, hothers, h⟩ := run_bind_ok.mp h
    cases h
    obtain ⟨hrest, hnames⟩ := ih hothers
    unfold structField at hfirst
    obtain ⟨ident, _, hlift, hfirst⟩ := run_bind_ok.mp hfirst
    obtain ⟨hident, rfl⟩ := run_lift_ok hlift
    obtain ⟨element, _, helement, hfirst⟩ := run_bind_ok.mp hfirst
    cases hfirst
    have hname := Ident.text_of_ofName hident
    refine ⟨.cons ⟨?_, ?_, ?_⟩ hrest, ?_⟩
    · exact ⟨_, tells_fieldMarks f, rfl⟩
    · exact ⟨element, elementType_made helement, rfl⟩
    · obtain ⟨count, hcount⟩ := (names.assignUnique_spec (Naming.fieldName f.name)).1
      exact ⟨count, hname.trans hcount⟩
    · rw [List.map_cons, List.map_cons, Naming.Table.assignEach, hnames]
      exact congrArg (· :: _) hname

/-- The fields are made with the names that the table gives, so each of them is new. -/
theorem structFields_made {fields : List SchemaBindings.Field} {names : Naming.Table}
    {made : List StructField}
    (h : (structFields c owner depth fields names).run notes = .ok (made, notes')) :
    FieldsMade c owner depth fields made where
  each := (structFields_each h).1
  distinct := (structFields_each h).2 ▸ (names.assignEach_distinct _).1

/-! ## Messages -/

/-- The structure that is made for a message. -/
structure StructMade (c : Context) (depth : Nat) (p : PlacedMessage) (s : PlacedStruct) :
    Prop where
  parents : s.parents = p.parents
  name : definedName c p.fullName = .ok s.name
  fields : FieldsMade c p.fullName (depth + p.parents.length) p.message.fields s.fields

/-- What is made for messages of an inner module is there for the messages inside it. -/
theorem StructMade.inside {p : PlacedMessage} {s : PlacedStruct}
    (h : StructMade c (depth + 1) p s) (module : String) :
    StructMade c depth (p.inside module) (s.inside module) where
  parents := congrArg (module :: ·) h.parents
  name := h.name
  fields := by
    have hdepth : depth + (p.parents.length + 1) = depth + 1 + p.parents.length := by omega
    exact hdepth ▸ h.fields

theorem structsOf_enums {enums : List SchemaBindings.Enum} {items : List Item}
    (h : enums.mapM (enumItem c scope) = .ok items) : structsOf items = [] := by
  have hall := mapM_ok.mp h
  clear h
  induction hall with
  | nil => rfl
  | cons he _ ih =>
    obtain ⟨_, _, _, rfl, -⟩ := enumItem_ok he
    exact ih

mutual

/-- For every message, at any depth inside it, there is exactly one structure among the items that
are made for the message, and the structures stand in the order of the messages. -/
theorem messageItems_structs {m : Message} {scope : String} {depth : Nat} {items : List Item}
    {notes notes' : Notes}
    (h : (messageItems c scope depth m).run notes = .ok (items, notes')) :
    List.Forall₂ (StructMade c depth) (m.placed scope) (structsOf items) := by
  obtain ⟨name, fields, messages, enums, docs⟩ := m
  rw [messageItems] at h
  obtain ⟨ident, _, hlift, h⟩ := run_bind_ok.mp h
  obtain ⟨hident, rfl⟩ := run_lift_ok hlift
  obtain ⟨made, between, hmade, h⟩ := run_bind_ok.mp h
  dsimp only at h
  have hself : StructMade c depth ⟨scope, [], ⟨name, fields, messages, enums, docs⟩⟩
      ⟨[], ident, made⟩ := ⟨rfl, hident, structFields_made hmade⟩
  split at h
  · next hnone =>
    cases h
    obtain ⟨rfl, rfl⟩ : messages = [] ∧ enums = [] := by simpa using hnone
    rw [Message.placed, placedMessages]
    exact .cons hself .nil
  · obtain ⟨module, _, hlift', h⟩ := run_bind_ok.mp h
    obtain ⟨hmodule, rfl⟩ := run_lift_ok hlift'
    obtain ⟨enumItems, _, hlift'', h⟩ := run_bind_ok.mp h
    obtain ⟨henums, rfl⟩ := run_lift_ok hlift''
    obtain ⟨inner, _, hinner, h⟩ := run_bind_ok.mp h
    cases h
    have hnested := allMessageItems_structs hinner
    have htext : module.text = Naming.moduleName name := Ident.text_of_ofName hmodule
    rw [Message.placed, structsOf_struct_module, structsOf_append, structsOf_enums henums, htext]
    refine .cons hself ?_
    rw [List.nil_append, List.forall₂_map_left_iff, List.forall₂_map_right_iff]
    exact hnested.imp fun _ _ hs => hs.inside _

theorem allMessageItems_structs {ms : List Message} {scope : String} {depth : Nat}
    {items : List Item} {notes notes' : Notes}
    (h : (allMessageItems c scope depth ms).run notes = .ok (items, notes')) :
    List.Forall₂ (StructMade c depth) (placedMessages scope ms) (structsOf items) := by
  match ms with
  | [] =>
    rw [allMessageItems] at h
    cases h
    rw [placedMessages]
    exact .nil
  | m :: rest =>
    rw [allMessageItems] at h
    obtain ⟨first, _, hfirst, h⟩ := run_bind_ok.mp h
    obtain ⟨others, _, hothers, h⟩ := run_bind_ok.mp h
    cases h
    rw [placedMessages, structsOf_append]
    exact List.rel_append (messageItems_structs hfirst) (allMessageItems_structs hothers)

end

end Binding

end SchemaBindings
