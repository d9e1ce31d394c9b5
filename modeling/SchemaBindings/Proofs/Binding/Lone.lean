import SchemaBindings.Proofs.Binding.Settled

/-!
What is made of a file with one message, as far as the fields of the message go: its structure, or
the failure of a field. A field that holds its type any number of times needs no box.
-/

namespace SchemaBindings

open Code Naming

/-- The type that stands for one of a field without any definition. -/
def TypeMap.given? (m : TypeMap) : FieldType → Option Ty
  | .scalar kind => m.scalar? kind
  | .named fullName => m.extern? fullName

namespace Binding

section Steps

variable {α β : Type} {x : Binder α} {f : α → Binder β} {y : Except Failure α} {a : α}
  {e : Failure} {notes notes' : Notes}

theorem run_bind_of_ok (h : x.run notes = .ok (a, notes')) :
    (x >>= f).run notes = (f a).run notes' := by
  rw [StateT.run_bind, h]
  rfl

theorem run_bind_of_error (h : x.run notes = .error e) : (x >>= f).run notes = .error e := by
  rw [StateT.run_bind, h]
  rfl

theorem run_lift_of_ok (h : y = .ok a) : (liftM y : Binder α).run notes = .ok (a, notes) := by
  rw [h]
  rfl

theorem run_lift_of_error (h : y = .error e) : (liftM y : Binder α).run notes = .error e := by
  rw [h]
  rfl

end Steps

variable {c : Context} {s : Symbol} {notes notes' : Notes} {e : Failure}

/-! ## References -/

section References

variable {fullName : String} {depth : Nat} {names : List Ident}

theorem reference?_mapped {t : Ty} (h : c.types.extern? fullName = some t) :
    (reference? c fullName depth).run notes = .ok (some t, notes) := by
  rw [reference?, h]
  rfl

/-- A reference to a definition is relative to what it claims, or absolute. -/
theorem reference?_defined (hmapped : c.types.extern? fullName = none)
    (hs : c.symbols.get? fullName = some s) (hp : s.path.mapM Ident.ofName = .ok names) :
    (reference? c fullName depth).run notes =
      (if (claimHead c s notes.imports).1 then relativeType depth names
        else absoluteType c.root s.module names) >>= fun t =>
          .ok (some t, { notes with imports := (claimHead c s notes.imports).2 }) := by
  rw [reference?, hmapped]
  dsimp only
  rw [hs]
  dsimp only
  rw [run_bind_of_ok (run_lift_of_ok hp), run_bind_of_ok (rfl : (get : Binder Notes).run notes = _)]
  generalize claimHead c s notes.imports = claimed
  rw [run_bind_of_ok (rfl : (modify _ : Binder Unit).run notes = _)]
  split
  · cases relativeType depth names <;> rfl
  · cases absoluteType c.root s.module names <;> rfl

theorem not_beginsType_appendIdents {p : Path} (h : beginsType p = false) (idents : List Ident) :
    beginsType (p.appendIdents idents) = false := by
  obtain ⟨leading, segments⟩ := p
  cases segments with
  | nil => simp [beginsType, Path.segments] at h
  | cons s rest => exact h

theorem absoluteType_of_not_beginsType {root : Path} (hr : beginsType root = false)
    {module : ModuleId} (hm : ∀ name ∈ module.segments, IsUsable name) (names : List Ident) :
    absoluteType root module names = .error .unusableName := by
  let p := (root.appendIdents (module.segments.map Ident.mk)).appendIdents names
  have hunfit : (names.contains underscore || !beginsType p) = true := by
    rw [not_beginsType_appendIdents (not_beginsType_appendIdents hr _)]
    exact Bool.or_true _
  exact (bind_of_ok (path_of_isUsable hm root) _).trans (if_pos hunfit)

end References

/-! ## Fields -/

/-- A field that holds its type any number of times. -/
def listField (type : FieldType) : SchemaBindings.Field :=
  { name := "a", type, cardinality := .repeated, number := 1 }

/-- What is made of such a field. -/
def listOf (c : Context) (type : FieldType) (t : Ty) : StructField :=
  ⟨[fieldAttribute c (listField type)], true, ⟨"a"⟩, .global ["std", "vec", "Vec"] t⟩

section Fields

variable {owner scope fullName : String} {type : FieldType} {t : Ty}

theorem isIdentifier_listField : isIdentifier (listField type).name = true := by
  have hname : isIdentifier "a" = true := by decide
  exact hname

theorem ofName_listField :
    Ident.ofName (({ scope } : Table).assignUnique (fieldName "a")).1 = .ok ⟨"a"⟩ := by
  have hname : (({ scope } : Table).assignUnique (fieldName "a")).1 = fieldName "a" := rfl
  have hkept : fieldName "a" = "a" := by decide +kernel
  rw [hname, hkept]
  exact ofName_of_isIdentifier (by decide)

theorem elementType_given (h : c.types.given? type = some t) :
    (elementType c owner 0 (listField type)).run notes = .ok (t, notes) := by
  rw [elementType, listField]
  cases type with
  | scalar kind =>
    have hscalar : c.types.scalar? kind = some t := h
    dsimp only
    rw [hscalar]
    rfl
  | named fullName =>
    dsimp only
    rw [run_bind_of_ok (reference?_mapped h)]
    rfl

theorem elementType_named (h : (reference? c fullName 0).run notes = .ok (some t, notes')) :
    (elementType c owner 0 (listField (.named fullName))).run notes = .ok (t, notes') := by
  rw [elementType, listField]
  dsimp only
  rw [run_bind_of_ok h]
  rfl

theorem elementType_error (h : (reference? c fullName 0).run notes = .error e) :
    (elementType c owner 0 (listField (.named fullName))).run notes = .error e := by
  rw [elementType, listField]
  exact run_bind_of_error h

theorem structFields_listField (owner scope : String)
    (h : (elementType c owner 0 (listField type)).run notes = .ok (t, notes')) :
    (structFields c owner 0 [listField type] { scope }).run notes =
      .ok ([listOf c type t], notes') := by
  have hfield : (structField c owner 0 (({ scope } : Table).assignUnique (fieldName "a")).1
      (listField type)).run notes = .ok (listOf c type t, notes') := by
    rw [structField, run_bind_of_ok (run_lift_of_ok ofName_listField), run_bind_of_ok h]
    rfl
  rw [structFields]
  dsimp only
  rw [listField] at *
  rw [run_bind_of_ok hfield]
  rfl

theorem structFields_listField_error
    (h : (elementType c owner 0 (listField type)).run notes = .error e) :
    (structFields c owner 0 [listField type] { scope }).run notes = .error e := by
  rw [structFields]
  dsimp only
  refine run_bind_of_error ?_
  rw [structField, listField, run_bind_of_ok (run_lift_of_ok ofName_listField)]
  exact run_bind_of_error h

theorem wellFormed_global {names : List String}
    (hn : (Path.ofNames true names).isGlobal = true) (h : t.all wellFormed = true) :
    (Ty.global names t).all wellFormed = true := by
  obtain ⟨hleading, htakes, -⟩ := Path.isGlobal_iff.mp hn
  have htype : wellFormed.type (Ty.global names t) = true := by
    simp [wellFormed, Ty.global, htakes, Path.beginsType, hleading]
  rw [Ty.global] at htype ⊢
  rw [Ty.all, htype, allTypes, h, Path.all_of_isPlain _ (Path.isPlain_of_isGlobal hn)]
  rfl

theorem isWellFormed_listOf (hf : c.library.fieldAttribute.text ≠ "try") (type : FieldType)
    (ht : t.all wellFormed = true) : (listOf c type t).isWellFormed = true := by
  have hname : (Ident.mk "a").isName = true := by decide
  rw [StructField.isWellFormed, listOf, List.all_cons, isWellFormed_fieldAttribute hf, hname,
    wellFormed_global rfl ht]
  rfl

end Fields

/-! ## Messages -/

/-- A file with one message. -/
def lone (path package : String) (m : Message) : SchemaFile :=
  { path, package, messages := [m] }

/-- The structure of a message without documentation. -/
def structOf (l : SupportLibrary) (name : String) (fields : List StructField) : Item :=
  .struct [deriveAttribute ["Debug", "Clone", "PartialEq"] l.messageDerive] ⟨name⟩ fields

section Messages

variable {path package name : String} {fields : List SchemaBindings.Field}

theorem definedName_of_get? {fullName : String} (hs : c.symbols.get? fullName = some s)
    (hn : IsUsable s.name) : definedName c fullName = .ok ⟨s.name⟩ := by
  unfold definedName
  rw [hs]
  exact hn.ofName

theorem moduleFile_lone (m : Message) : moduleFile c (lone path package m) =
    (do return ⟨[sourceDoc path], ← messageItems c package 0 m⟩) := by
  simp [moduleFile, lone, allMessageItems, serviceItems]

/-- A message whose fields cannot be made cannot be made either. -/
theorem moduleFile_lone_error {m : Message}
    (hs : c.symbols.get? (qualify package m.name) = some s) (hn : IsUsable s.name)
    (hf : (structFields c (qualify package m.name) 0 m.fields
      { scope := qualify package m.name }).run {} = .error e) :
    (moduleFile c (lone path package m)).run {} = .error e := by
  rw [moduleFile_lone]
  refine run_bind_of_error ?_
  obtain ⟨messageName, fields, messages, enums, docs⟩ := m
  rw [messageItems, run_bind_of_ok (run_lift_of_ok (definedName_of_get? hs hn))]
  exact run_bind_of_error hf

/-- A message in which nothing is nested becomes a structure. -/
theorem moduleFile_lone_ok {emitted : List StructField}
    (hs : c.symbols.get? (qualify package name) = some s) (hn : IsUsable s.name)
    (hf : (structFields c (qualify package name) 0 fields
      { scope := qualify package name }).run {} = .ok (emitted, notes)) :
    (moduleFile c (lone path package { name, fields })).run {} =
      .ok (⟨[sourceDoc path], [structOf c.library s.name emitted]⟩, notes) := by
  have hmessage : (messageItems c package 0 { name, fields }).run {} =
      .ok ([structOf c.library s.name emitted], notes) := by
    rw [messageItems, run_bind_of_ok (run_lift_of_ok (definedName_of_get? hs hn)),
      run_bind_of_ok hf]
    rfl
  rw [moduleFile_lone, run_bind_of_ok hmessage]
  rfl

theorem placedMessages_lone :
    (lone path package { name, fields }).placedMessages = [⟨package, [], { name, fields }⟩] :=
  rfl

theorem definitions_lone : (lone path package { name, fields }).definitions =
    [(qualify package name, ⟨ModuleId.ofSchemaPath path, [typeName name], .message⟩)] :=
  rfl

theorem names_lone {asyncPrefix : String} :
    (lone path package { name, fields }).names asyncPrefix = [typeName name] :=
  rfl

theorem typeNames_lone : (lone path package { name, fields }).typeNames = [name] :=
  rfl

theorem claimed_lone {asyncPrefix : String} :
    SymbolTable.Claimed asyncPrefix (lone path package { name, fields }) where
  names := by
    rw [names_lone]
    exact List.nodup_singleton _
  innerNames p hp := by
    rw [placedMessages_lone, List.mem_singleton] at hp
    subst hp
    exact List.nodup_nil

theorem hasIdentifiers_lone (hp : ∀ c ∈ path.toList, c.toNat < 128)
    (hn : isIdentifier name = true) (hf : ∀ f ∈ fields, isIdentifier f.name = true) :
    (lone path package { name, fields }).HasIdentifiers where
  path := hp
  enums := nofun
  messages p hmem := by
    rw [placedMessages_lone, List.mem_singleton] at hmem
    subst hmem
    exact ⟨hn, hf, nofun⟩
  services := nofun

end Messages

end Binding

end SchemaBindings
