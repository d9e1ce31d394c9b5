import SchemaBindings.Descriptor
import SchemaBindings.Proofs.Schema.Identifiers
import SchemaBindings.Proofs.Schema.Registration

/-!
What the descriptors of a file define and refer to, and that the schema file that is made from them
defines and refers to the same: a definition keeps its full name and its kind, and gets the place
that the messages around it say.
-/

namespace SchemaBindings

/-! ## References of schema files -/

/-- The full name that a field refers to. -/
def Field.reference? (f : Field) : Option String :=
  match f.type with
  | .scalar _ => none
  | .named fullName => some fullName

/-- The full names that the requests and responses of a service are. -/
def Service.references (s : Service) : List String :=
  s.methods.flatMap fun m => [m.inputType, m.outputType]

/-- The full names that messages and what is nested in them refer to. -/
def referencesWithin (ps : List PlacedMessage) : List String :=
  (ps.flatMap (·.message.fields)).filterMap Field.reference?

theorem referencesWithin_append (ps qs : List PlacedMessage) :
    referencesWithin (ps ++ qs) = referencesWithin ps ++ referencesWithin qs := by
  rw [referencesWithin, List.flatMap_append, List.filterMap_append]
  rfl

theorem referencesWithin_placed (scope : String) (m : Message) :
    referencesWithin (m.placed scope) = m.fields.filterMap Field.reference? ++
      referencesWithin (placedMessages (qualify scope m.name) m.messages) := by
  cases m
  rw [Message.placed, referencesWithin, List.flatMap_cons, List.flatMap_map, List.filterMap_append]
  rfl

namespace SchemaFile

/-- All full names that a file refers to. -/
def references (f : SchemaFile) : List String :=
  referencesWithin f.placedMessages ++ f.services.flatMap Service.references

end SchemaFile

namespace Descriptor

/-! ## Definitions -/

/-- Where a message or an enum is defined: the names of the messages around it, the outermost one
first, and its own. -/
structure Place where
  outer : List String
  name : String
  kind : SymbolKind
deriving DecidableEq

namespace Place

def inside (name : String) (p : Place) : Place :=
  { p with outer := name :: p.outer }

/-- The symbol of the definition in the module of its file. -/
def symbol (module : ModuleId) (p : Place) : Symbol :=
  ⟨module, p.outer.map Naming.moduleName ++ [Naming.typeName p.name], p.kind⟩

end Place

/-- The places of enums inside nothing else. -/
def enumPlaces (enums : List Enum) : List Place :=
  enums.map fun e => ⟨[], e.name, .enum⟩

mutual

def Message.places : Message → List Place
  | ⟨name, _, messages, enums, _⟩ =>
    ⟨[], name, .message⟩ :: (enumPlaces enums ++ messagePlaces messages).map (·.inside name)

def messagePlaces : List Message → List Place
  | [] => []
  | m :: rest => m.places ++ messagePlaces rest

end

namespace File

/-- Everything that a file defines, at any depth. -/
def places (f : File) : List Place :=
  enumPlaces f.enums ++ messagePlaces f.messages

/-- The full name of a definition: the package, if there is one, the names of the messages around
it, and its own, with dots between them. -/
def fullName (f : File) (p : Place) : String :=
  ".".intercalate ((if f.package.isEmpty then [] else [f.package]) ++ (p.outer ++ [p.name]))

/-- Everything that is defined is called by an identifier, and the package does not begin with a
dot. -/
structure HasIdentifiers (f : File) : Prop where
  package : f.package.toList.head? ≠ some '.'
  places : ∀ p ∈ f.places, ∀ name ∈ p.outer ++ [p.name], Naming.isIdentifier name = true

instance (f : File) : Decidable f.HasIdentifiers :=
  decidable_of_iff (f.package.toList.head? ≠ some '.' ∧ ∀ p ∈ f.places,
      ∀ name ∈ p.outer ++ [p.name], Naming.isIdentifier name = true)
    ⟨fun h => ⟨h.1, h.2⟩, fun h => ⟨h.package, h.places⟩⟩

end File

/-! ## References -/

/-- The text by which a field refers to a message or an enum. -/
def Field.reference? (f : Field) : Option String :=
  if f.kind = .message ∨ f.kind = .enum then some f.typeName else none

def Service.references (s : Service) : List String :=
  s.methods.flatMap fun m => [m.inputType, m.outputType]

mutual

def Message.references : Message → List String
  | ⟨_, fields, messages, _, _⟩ => fields.filterMap Field.reference? ++ messageReferences messages

/-- The references of messages, at any depth. -/
def messageReferences : List Message → List String
  | [] => []
  | m :: rest => m.references ++ messageReferences rest

end

/-- The texts by which a file refers to messages and enums. -/
def File.references (f : File) : List String :=
  messageReferences f.messages ++ f.services.flatMap Service.references

/-! ## Full names -/

theorem intercalate_qualify {scope name : String} (hn : name ≠ "") (rest : List String) :
    ".".intercalate ((if (qualify scope name).isEmpty then [] else [qualify scope name]) ++ rest) =
      ".".intercalate ((if scope.isEmpty then [] else [scope]) ++ name :: rest) := by
  unfold qualify
  by_cases hs : scope.isEmpty = true
  · have hname : name.isEmpty = false := by simpa using hn
    simp only [hs, hname, if_true, List.nil_append]
    rfl
  · have hlong : ¬ (scope ++ "." ++ name).isEmpty = true := by
      rw [String.isEmpty_iff]
      intro heq
      simpa [String.toList_append] using congrArg String.toList heq
    rw [if_neg hs, if_neg hlong, if_neg hs, ← String.toList_inj]
    cases rest <;> simp [String.toList_intercalate]

/-- Names that are put into one scope after the other are joined by dots. -/
theorem foldl_qualify {scope : String} {outer : List String} {name : String}
    (h : ∀ n ∈ outer, n ≠ "") : qualify (outer.foldl qualify scope) name =
      ".".intercalate ((if scope.isEmpty then [] else [scope]) ++ (outer ++ [name])) := by
  induction outer generalizing scope with
  | nil =>
    unfold qualify
    rw [List.foldl_nil]
    split <;> simp
  | cons n rest ih =>
    obtain ⟨hn, hrest⟩ := List.forall_mem_cons.mp h
    rw [List.foldl_cons, ih hrest, intercalate_qualify hn]
    rfl

/-! ## What is made of descriptors -/

open SymbolTable (placedDefinitions placedDefinitions_cons placedDefinitions_placed)

variable {module : ModuleId} {scope : String} {parent : List String}

/-- The definition that is made at a place of a scope; `parent` leads to the scope inside the
module. -/
def Place.definition (module : ModuleId) (scope : String) (parent : List String) (p : Place) :
    Definition :=
  (qualify (p.outer.foldl qualify scope) p.name,
    ⟨module, parent ++ (p.outer.map Naming.moduleName ++ [Naming.typeName p.name]), p.kind⟩)

theorem definition_inside (name : String) (p : Place) :
    (p.inside name).definition module scope parent =
      p.definition module (qualify scope name) (parent ++ [Naming.moduleName name]) := by
  simp [Place.definition, Place.inside]

/-- What is made of the elements of a list at their places, seen without their places. -/
theorem map_mapIdx_of_forall {α β γ : Type} {f : ℕ → α → β} {g : β → γ} {h : α → γ}
    (hall : ∀ i a, g (f i a) = h a) (as : List α) : (as.mapIdx f).map g = as.map h := by
  refine List.ext_getElem (by simp) fun i _ _ => ?_
  simp [hall]

theorem enumDefinitions_convert (enums : List Enum) (f : ℕ → Enum → SchemaBindings.Enum)
    (hf : ∀ i e, (f i e).name = e.name) :
    enumDefinitions module scope parent (enums.mapIdx f) =
      (enumPlaces enums).map (·.definition module scope parent) := by
  rw [enumDefinitions, enumPlaces, List.map_map]
  exact map_mapIdx_of_forall (fun i e => by rw [hf]; rfl) enums

mutual

theorem placedDefinitions_convert (s : Source) (path : List Int) (m : Message) {scope : String}
    {parent : List String} :
    placedDefinitions module parent ((m.convert s path).placed scope) =
      m.places.map (·.definition module scope parent) := by
  obtain ⟨name, fields, messages, enums, oneofs⟩ := m
  rw [Message.convert, placedDefinitions_placed, Message.places]
  dsimp only
  rw [enumDefinitions_convert enums _ fun _ _ => rfl,
    placedDefinitions_convertMessages s path 3 0 messages, ← List.map_append, List.map_cons,
    List.map_map]
  simp only [Function.comp_def, definition_inside]
  rfl

theorem placedDefinitions_convertMessages (s : Source) (path : List Int) (part : Int) (place : ℕ)
    (ms : List Message) {scope : String} {parent : List String} :
    placedDefinitions module parent
        (placedMessages scope (convertMessages s path part place ms)) =
      (messagePlaces ms).map (·.definition module scope parent) := by
  match ms with
  | [] => rfl
  | m :: rest =>
    rw [convertMessages, placedDefinitions_cons, placedDefinitions_convert s _ m,
      placedDefinitions_convertMessages s path part (place + 1) rest, messagePlaces,
      List.map_append]

end

/-- What a converted field refers to is what its descriptor does, without the dot in front. -/
theorem reference?_convert (s : Source) (owner : Message) (path : List Int) (f : Field) :
    (f.convert s owner path).reference? = f.reference?.map withoutLeadingDots := by
  rw [SchemaBindings.Field.reference?, Field.convert, Field.type, Field.reference?]
  cases f.kind <;> rfl

theorem filterMap_reference?_convert (s : Source) (owner : Message) (path : ℕ → List Int)
    (fields : List Field) :
    (fields.mapIdx fun i f => f.convert s owner (path i)).filterMap
        SchemaBindings.Field.reference? =
      (fields.filterMap Field.reference?).map withoutLeadingDots := by
  have hall := congrArg (List.filterMap id)
    (map_mapIdx_of_forall (fun i f => reference?_convert s owner (path i) f) fields)
  rw [List.filterMap_map, List.filterMap_map] at hall
  rw [List.map_filterMap]
  exact hall

mutual

theorem referencesWithin_convert (s : Source) (path : List Int) (m : Message) {scope : String} :
    referencesWithin ((m.convert s path).placed scope) = m.references.map withoutLeadingDots := by
  obtain ⟨name, fields, messages, enums, oneofs⟩ := m
  rw [Message.convert, referencesWithin_placed, Message.references]
  dsimp only
  rw [filterMap_reference?_convert, referencesWithin_convertMessages s path 3 0 messages,
    List.map_append]

theorem referencesWithin_convertMessages (s : Source) (path : List Int) (part : Int) (place : ℕ)
    (ms : List Message) {scope : String} :
    referencesWithin (placedMessages scope (convertMessages s path part place ms)) =
      (messageReferences ms).map withoutLeadingDots := by
  match ms with
  | [] => rfl
  | m :: rest =>
    rw [convertMessages, placedMessages, referencesWithin_append, referencesWithin_convert s _ m,
      referencesWithin_convertMessages s path part (place + 1) rest, messageReferences,
      List.map_append]

end

/-! ## Files -/

namespace File

variable (path : String) (f : File)

theorem references_convert :
    (f.convert path).references = f.references.map withoutLeadingDots := by
  have hservice (s : Source) (package : String) (path : List Int) (v : Service) :
      (v.convert s package path).references = v.references.map withoutLeadingDots := by
    rw [SchemaBindings.Service.references, Service.references, List.map_flatMap,
      List.flatMap_def, List.flatMap_def]
    refine congrArg List.flatten (map_mapIdx_of_forall (fun i m => ?_) v.methods)
    rfl
  rw [SchemaFile.references, File.references, List.map_append, List.map_flatMap]
  refine congrArg₂ (· ++ ·) (referencesWithin_convertMessages _ [] 4 0 f.messages) ?_
  rw [List.flatMap_def, List.flatMap_def]
  exact congrArg List.flatten (map_mapIdx_of_forall (fun i v => hservice _ _ _ v) f.services)

/-- A file defines what its descriptors do, under the same full names. -/
theorem definitions_convert (h : f.HasIdentifiers) : (f.convert path).definitions =
    f.places.map fun p => (f.fullName p, p.symbol (ModuleId.ofSchemaPath path)) := by
  have hnonempty {name : String} (hn : Naming.isIdentifier name = true) : name ≠ "" := by
    rintro rfl
    exact absurd hn (by decide)
  have hdefinition : ∀ p ∈ f.places, p.definition (f.convert path).module f.package [] =
      (f.fullName p, p.symbol (ModuleId.ofSchemaPath path)) := by
    intro p hp
    have hnames := h.places p hp
    rw [Place.definition, foldl_qualify fun n hn =>
      hnonempty (hnames n (List.mem_append_left _ hn))]
    rfl
  rw [← List.map_congr_left hdefinition, File.places, List.map_append]
  refine congrArg₂ (· ++ ·) (enumDefinitions_convert f.enums _ fun _ _ => rfl) ?_
  exact placedDefinitions_convertMessages _ [] 4 0 f.messages

/-- No full name begins with a dot. -/
theorem fullName_head? (h : f.HasIdentifiers) {p : Place} (hp : p ∈ f.places) :
    (f.fullName p).toList.head? ≠ some '.' := by
  have hhead {first : String} (hfirst : first ≠ "") (rest : List String) :
      (".".intercalate (first :: rest)).toList.head? = first.toList.head? := by
    obtain ⟨c, cs, hc⟩ : ∃ c cs, first.toList = c :: cs :=
      List.exists_cons_of_ne_nil fun hnil => hfirst (String.toList_eq_nil_iff.mp hnil)
    rw [String.toList_intercalate]
    cases rest <;> simp [hc, List.intercalate_cons_cons]
  rw [fullName]
  by_cases hpackage : f.package.isEmpty = true
  · obtain ⟨first, rest, hnames⟩ := List.exists_cons_of_ne_nil
      (List.append_ne_nil_of_right_ne_nil p.outer (List.cons_ne_nil p.name []))
    have hfirst := h.places p hp first (hnames ▸ List.mem_cons_self)
    have hnonempty : first ≠ "" := by
      rintro rfl
      exact absurd hfirst (by decide)
    rw [if_pos hpackage, hnames, List.nil_append, hhead hnonempty]
    intro hdot
    cases Naming.forall_part hfirst '.' (List.mem_of_head? hdot)
  · rw [if_neg hpackage]
    have hnonempty : f.package ≠ "" := fun heq => hpackage (String.isEmpty_iff.mpr heq)
    rw [List.singleton_append, hhead hnonempty]
    exact h.package

end File

theorem withoutLeadingDots_dot {name : String} (h : name.toList.head? ≠ some '.') :
    withoutLeadingDots ("." ++ name) = name := by
  rw [withoutLeadingDots, String.toList_append]
  cases hname : name.toList with
  | nil => rw [← String.toList_inj, hname]; rfl
  | cons c cs =>
    rw [hname, List.head?_cons] at h
    have hc : c ≠ '.' := fun heq => h (congrArg some heq)
    rw [← String.toList_inj, String.toList_ofList, hname]
    simp [hc]

/-! ## Several files -/

/-- The schema files that are made of descriptors, which come with the paths of their files. -/
def schemaFiles (sources : List (String × File)) : List SchemaFile :=
  sources.map fun s => s.2.convert s.1

/-- No two definitions of the descriptors have the same full name. -/
def DistinctNames (sources : List (String × File)) : Prop :=
  (sources.flatMap fun s => s.2.places.map s.2.fullName).Nodup

instance (sources : List (String × File)) : Decidable (DistinctNames sources) :=
  inferInstanceAs (Decidable (List.Nodup _))

section

variable {sources : List (String × File)} (h : ∀ s ∈ sources, s.2.HasIdentifiers)

include h

theorem definitions_schemaFiles : definitions (schemaFiles sources) = sources.flatMap fun s =>
    s.2.places.map fun p => (s.2.fullName p, p.symbol (ModuleId.ofSchemaPath s.1)) := by
  rw [definitions, schemaFiles, List.flatMap_map]
  exact List.flatMap_congr fun s hs => s.2.definitions_convert s.1 (h s hs)

theorem distinctNames_schemaFiles (hn : DistinctNames sources) :
    SchemaBindings.DistinctNames (schemaFiles sources) := by
  rw [SchemaBindings.DistinctNames, definitions_schemaFiles h, List.map_flatMap]
  simpa [DistinctNames, Function.comp_def] using hn

end

end Descriptor

end SchemaBindings
