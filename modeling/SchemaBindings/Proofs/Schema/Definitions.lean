import SchemaBindings.Service.Shape
import SchemaBindings.SymbolTable

/-!
The definitions of a schema, read off its files alone: every message at any depth with the names of
the modules around it, and for every message and enum its full name and its place.
-/

namespace SchemaBindings

/-- A message in the full name of its scope, with the names of the modules that lead to it inside
the module of its file. -/
structure PlacedMessage where
  scope : String
  parents : List String
  message : Message

namespace PlacedMessage

def fullName (p : PlacedMessage) : String :=
  qualify p.scope p.message.name

/-- The names that lead to the structure of the message. -/
def path (p : PlacedMessage) : List String :=
  p.parents ++ [Naming.typeName p.message.name]

/-- The names that lead to the module of what is nested in the message. -/
def inner (p : PlacedMessage) : List String :=
  p.parents ++ [Naming.moduleName p.message.name]

/-- The message one module further inside. -/
def inside (module : String) (p : PlacedMessage) : PlacedMessage :=
  { p with parents := module :: p.parents }

end PlacedMessage

mutual

/-- A message with all messages that are nested in it. -/
def Message.placed (scope : String) : Message → List PlacedMessage
  | ⟨name, fields, messages, enums, docs⟩ =>
    ⟨scope, [], ⟨name, fields, messages, enums, docs⟩⟩ ::
      (placedMessages (qualify scope name) messages).map (·.inside (Naming.moduleName name))

def placedMessages (scope : String) : List Message → List PlacedMessage
  | [] => []
  | m :: rest => m.placed scope ++ placedMessages scope rest

end

/-! ## Definitions -/

/-- A full name with the place of what it names. -/
abbrev Definition := String × Symbol

/-- The enums of a scope; `parent` leads to the scope inside the module. -/
def enumDefinitions (module : ModuleId) (scope : String) (parent : List String)
    (enums : List Enum) : List Definition :=
  enums.map fun e => (qualify scope e.name, ⟨module, parent ++ [Naming.typeName e.name], .enum⟩)

/-- A placed message and its enums; `parent` leads to where it is placed. -/
def PlacedMessage.definitions (module : ModuleId) (parent : List String) (p : PlacedMessage) :
    List Definition :=
  (p.fullName, ⟨module, parent ++ p.path, .message⟩) ::
    enumDefinitions module p.fullName (parent ++ p.inner) p.message.enums

namespace SchemaFile

def module (f : SchemaFile) : ModuleId :=
  ModuleId.ofSchemaPath f.path

def placedMessages (f : SchemaFile) : List PlacedMessage :=
  SchemaBindings.placedMessages f.package f.messages

def definitions (f : SchemaFile) : List Definition :=
  enumDefinitions f.module f.package [] f.enums ++
    f.placedMessages.flatMap (·.definitions f.module [])

end SchemaFile

/-- All definitions of a schema. -/
def definitions (files : List SchemaFile) : List Definition :=
  files.flatMap SchemaFile.definitions

/-- No two definitions of a schema have the same full name. -/
def DistinctNames (files : List SchemaFile) : Prop :=
  ((definitions files).map (·.1)).Nodup

/-- Definitions with the same full name have the same name in their scopes. -/
def Unambiguous (files : List SchemaFile) : Prop :=
  ∀ d ∈ definitions files, ∀ d' ∈ definitions files, d.1 = d'.1 → d.2.name = d'.2.name

/-! ## Names of scopes -/

/-- The names that a message takes in its scope. -/
def Message.names (m : Message) : List String :=
  Naming.typeName m.name :: if m.hasNested then [Naming.moduleName m.name] else []

/-- The names that definitions take in their scope. -/
def scopeNames (enums : List Enum) (messages : List Message) : List String :=
  enums.map (Naming.typeName ·.name) ++ messages.flatMap Message.names

/-- The name of the client of a service in a mode. -/
def Service.clientName (asyncPrefix : String) (s : Service) : Mode → String
  | .blocking => Naming.typeName s.name
  | .suspending => SymbolTable.suspendingName asyncPrefix s

/-- The names of the clients of services. -/
def clientNames (asyncPrefix : String) (services : List Service) : List String :=
  services.flatMap fun s =>
    [s.clientName asyncPrefix .blocking, s.clientName asyncPrefix .suspending]

/-- The names at the top of the module of a file. -/
def SchemaFile.names (asyncPrefix : String) (f : SchemaFile) : List String :=
  scopeNames f.enums f.messages ++ clientNames asyncPrefix f.services

theorem clientName_mem_names {asyncPrefix : String} {f : SchemaFile} {s : Service}
    (h : s ∈ f.services) (mode : Mode) : s.clientName asyncPrefix mode ∈ f.names asyncPrefix := by
  refine List.mem_append_right _ (List.mem_flatMap.mpr ⟨s, h, ?_⟩)
  cases mode <;> simp

/-- The names inside the module of what is nested in the message. -/
def PlacedMessage.innerNames (p : PlacedMessage) : List String :=
  scopeNames p.message.enums p.message.messages

/-- The names that lead to an item of the module of a file. -/
inductive SchemaFile.Takes (asyncPrefix : String) (f : SchemaFile) : List String → Prop
  | top (name : String) (h : name ∈ f.names asyncPrefix) : f.Takes asyncPrefix [name]
  | nested (p : PlacedMessage) (h : p ∈ f.placedMessages) (name : String)
    (hn : name ∈ p.innerNames) : f.Takes asyncPrefix (p.inner ++ [name])

/-! ## Where messages are placed -/

theorem mem_placedMessages_cons {p : PlacedMessage} {scope : String} {m : Message}
    {rest : List Message} : p ∈ placedMessages scope (m :: rest) ↔
      p ∈ m.placed scope ∨ p ∈ placedMessages scope rest := by
  rw [placedMessages, List.mem_append]

theorem mem_placed {p : PlacedMessage} {scope : String} {m : Message} :
    p ∈ m.placed scope ↔ p = ⟨scope, [], m⟩ ∨
      ∃ q ∈ placedMessages (qualify scope m.name) m.messages,
        p = q.inside (Naming.moduleName m.name) := by
  cases m
  simp [Message.placed, eq_comm]

mutual

/-- The names on the way to a message are those of the modules of messages around it. -/
theorem exists_of_mem_parents_placed (m : Message) {scope : String} {p : PlacedMessage}
    (hp : p ∈ m.placed scope) {name : String} (hn : name ∈ p.parents) :
    ∃ q ∈ m.placed scope, q.message.hasNested = true ∧
      name = Naming.moduleName q.message.name := by
  obtain ⟨messageName, fields, messages, enums, docs⟩ := m
  rcases mem_placed.mp hp with rfl | ⟨q, hq, rfl⟩
  · cases hn
  · rcases List.mem_cons.mp hn with rfl | hn
    · refine ⟨_, mem_placed.mpr (.inl rfl), ?_, rfl⟩
      have hne : messages ≠ [] := by
        rintro rfl
        rw [placedMessages] at hq
        cases hq
      simp [Message.hasNested, hne]
    · obtain ⟨q', hq', hnested⟩ := exists_of_mem_parents messages hq hn
      exact ⟨_, mem_placed.mpr (.inr ⟨q', hq', rfl⟩), hnested⟩

theorem exists_of_mem_parents (ms : List Message) {scope : String} {p : PlacedMessage}
    (hp : p ∈ placedMessages scope ms) {name : String} (hn : name ∈ p.parents) :
    ∃ q ∈ placedMessages scope ms, q.message.hasNested = true ∧
      name = Naming.moduleName q.message.name := by
  match ms with
  | [] =>
    rw [placedMessages] at hp
    cases hp
  | m :: rest =>
    rcases mem_placedMessages_cons.mp hp with hp | hp
    · obtain ⟨q, hq, hnested⟩ := exists_of_mem_parents_placed m hp hn
      exact ⟨q, mem_placedMessages_cons.mpr (.inl hq), hnested⟩
    · obtain ⟨q, hq, hnested⟩ := exists_of_mem_parents rest hp hn
      exact ⟨q, mem_placedMessages_cons.mpr (.inr hq), hnested⟩

end

/-- The place of a definition of a file, by what is defined. -/
inductive SchemaFile.Defines (f : SchemaFile) : Definition → Prop
  | enum (e : Enum) (h : e ∈ f.enums) :
    f.Defines (SchemaBindings.qualify f.package e.name,
      ⟨f.module, [Naming.typeName e.name], .enum⟩)
  | message (p : PlacedMessage) (h : p ∈ f.placedMessages) :
    f.Defines (p.fullName, ⟨f.module, p.path, .message⟩)
  | nestedEnum (p : PlacedMessage) (h : p ∈ f.placedMessages) (e : Enum)
    (he : e ∈ p.message.enums) :
    f.Defines (SchemaBindings.qualify p.fullName e.name,
      ⟨f.module, p.inner ++ [Naming.typeName e.name], .enum⟩)

theorem SchemaFile.Defines.module {f : SchemaFile} {d : Definition} (h : f.Defines d) :
    d.2.module = f.module := by
  cases h <;> rfl

theorem mem_definitions {files : List SchemaFile} {d : Definition} :
    d ∈ definitions files ↔ ∃ f ∈ files, f.Defines d := by
  rw [definitions, List.mem_flatMap]
  refine exists_congr fun f => and_congr_right fun _ => ?_
  simp only [SchemaFile.definitions, enumDefinitions, PlacedMessage.definitions, List.mem_append,
    List.mem_flatMap, List.mem_cons, List.mem_map, List.nil_append]
  constructor
  · rintro (⟨e, he, rfl⟩ | ⟨p, hp, rfl | ⟨e, he, rfl⟩⟩)
    · exact .enum e he
    · exact .message p hp
    · exact .nestedEnum p hp e he
  · rintro (⟨e, he⟩ | ⟨p, hp⟩ | ⟨p, hp, e, he⟩)
    · exact .inl ⟨e, he, rfl⟩
    · exact .inr ⟨p, hp, .inl rfl⟩
    · exact .inr ⟨p, hp, .inr ⟨e, he, rfl⟩⟩

end SchemaBindings
