import SchemaBindings.Binding.Module
import SchemaBindings.Proofs.Binding.Call
import SchemaBindings.Proofs.Binding.Message
import SchemaBindings.Proofs.Code.ReadBack
import SchemaBindings.Proofs.Schema.Definitions

/-!
Methods whose functions refuse to run: what is noted of them while a module is made, and that both
clients of a service have such a function for exactly these methods, also after they are finished.
-/

namespace SchemaBindings

open Code

/-! ## Methods that are not supported -/

/-- A stream of requests that a single response answers. -/
def Method.streamsRequestsOnly (m : Method) : Bool :=
  m.clientStreaming && !m.serverStreaming

theorem Method.isSupported_shape (m : Method) : m.shape.isSupported = !m.streamsRequestsOnly := by
  simp [shape, Shape.isSupported, streamsRequestsOnly]

/-- What is reported of the methods of a service that are not supported. -/
def Service.unsupported (s : Service) : List String :=
  (s.methods.filter (·.streamsRequestsOnly)).map fun m => s.fullName ++ "." ++ m.name

/-- What is reported of a file: its methods that are not supported, service by service. -/
def SchemaFile.unsupported (f : SchemaFile) : List String :=
  f.services.flatMap Service.unsupported

/-- The services of a file in the modes of their clients, in the order of the clients. -/
def SchemaFile.servicesByMode (f : SchemaFile) : List (Service × Mode) :=
  f.services.flatMap fun s => [(s, .blocking), (s, .suspending)]

theorem SchemaFile.mem_servicesByMode {f : SchemaFile} {client : Service × Mode} :
    client ∈ f.servicesByMode ↔ client.1 ∈ f.services := by
  obtain ⟨s, mode⟩ := client
  cases mode <;> simp [servicesByMode]

/-! ## Functions that refuse to run -/

namespace Code

/-- Whether the body does nothing with the requests but refuse them. -/
def Function.Refuses (f : Function) : Prop :=
  ∃ message, f.body = [.bind .wildcard (.variable "requests"),
    .result (.macroCall (.ofNames true ["core", "unimplemented"]) .paren [.literal message])]

/-- Whether the body begins with a variable. -/
def Function.BeginsWithVariable (f : Function) : Prop :=
  ∃ name value otherwise rest,
    f.body = .binding [] (.variable false false name) value otherwise :: rest

theorem Function.BeginsWithVariable.not_refuses {f : Function} (h : f.BeginsWithVariable) :
    ¬ f.Refuses := by
  obtain ⟨_, _, _, _, h⟩ := h
  rintro ⟨_, hr⟩
  cases h.symm.trans hr

theorem Function.BeginsWithVariable.relocate {f : Function} (h : f.BeginsWithVariable)
    (r : Relocation) : (f.relocate r).BeginsWithVariable := by
  obtain ⟨name, value, otherwise, rest, h⟩ := h
  rw [BeginsWithVariable, Function.relocate, h, List.map_cons, Statement.relocate,
    Statement.mapTypes, Pattern.mapTypes]
  exact ⟨name, _, _, _, rfl⟩

/-- A body that refuses has no types in it to relocate. -/
theorem Function.Refuses.relocate {f : Function} (h : f.Refuses) (r : Relocation) :
    (f.relocate r).Refuses := by
  obtain ⟨message, h⟩ := h
  refine ⟨message, ?_⟩
  rw [Function.relocate, h]
  rfl

/-- Whether the item is an implementation, as only clients have one. -/
def Item.isClient : Item → Bool
  | .implementation .. => true
  | _ => false

theorem Item.Finished.isClient {r : Relocation} {i i' : Item} (h : i.Finished r i') :
    i'.isClient = i.isClient := by
  cases h <;> rfl

end Code

namespace Binding

variable {c : Context} {notes notes' : Notes}

namespace Call

variable {call : Call} {l : SupportLibrary} {f : Function}

theorem refuses_of_not_isSupported (h : call.shape.isSupported = false) :
    (call.function l).Refuses := by
  refine ⟨quoted call.unsupportedMessage, ?_⟩
  rw [function, body, h]
  rfl

/-- A supported function begins with what it writes to the wire. -/
theorem exists_marshalling_eq (call : Call) (l : SupportLibrary) : ∃ name value,
    Reader.BindsVariable name ∧ call.marshalling l = .bind (.ofName name) value := by
  unfold marshalling
  split
  · exact ⟨"wire_requests", _, Reader.bindsVariable_wireRequests, rfl⟩
  · exact ⟨"wire_request", _, Reader.bindsVariable_wireRequest, rfl⟩

theorem beginsWithVariable_of_isSupported (h : call.shape.isSupported = true)
    (hf : (call.function l).readBack? = some f) :
    f.BeginsWithVariable := by
  obtain ⟨name, value, hname, hfirst⟩ := call.exists_marshalling_eq l
  have hbody : (call.function l).body = .bind (.ofName name) value ::
      [call.calling, call.logging l, call.unmarshalling l] := by
    change call.body l = _
    rw [body, if_pos h, hfirst]
  rw [Function.readBack?] at hf
  split at hf
  · cases hf
  split at hf
  · cases hf
    exact ⟨⟨name⟩, _, _, _, hbody⟩
  · obtain ⟨read, hread, rfl⟩ := Option.map_eq_some_iff.mp hf
    rw [hbody] at hread
    obtain ⟨_, _, _, rfl⟩ := exists_of_statements? hname hread
    exact ⟨_, _, _, _, rfl⟩

theorem refuses_of_readBack? (h : call.shape.isSupported = false)
    (hf : (call.function l).readBack? = some f) : f.Refuses := by
  have hrefuses := refuses_of_not_isSupported (l := l) h
  have hwell : allStatements wellFormed (call.function l).body = true := by
    obtain ⟨message, hbody⟩ := hrefuses
    rw [hbody]
    rfl
  rw [Function.readBack?, if_pos hwell] at hf
  split at hf <;> cases hf
  exact hrefuses

/-- In a finished file exactly the functions of methods that are not supported refuse to run. -/
theorem refuses_iff (hf : (call.function l).readBack? = some f) (r : Relocation) :
    (f.relocate r).Refuses ↔ call.method.streamsRequestsOnly = true := by
  have hsupported := call.method.isSupported_shape
  cases h : call.method.streamsRequestsOnly with
  | false =>
    rw [h] at hsupported
    have hbegins := (beginsWithVariable_of_isSupported hsupported hf).relocate r
    simpa using hbegins.not_refuses
  | true =>
    rw [h] at hsupported
    simpa using (refuses_of_readBack? hsupported hf).relocate r

end Call

theorem not_refuses_constructor {mode : Mode} {f : Function}
    (hf : (constructor c mode).readBack? = some f) (r : Relocation) : ¬ (f.relocate r).Refuses := by
  have hwell : allStatements wellFormed (constructor c mode).body = true := rfl
  rw [Function.readBack?, if_pos hwell] at hf
  split at hf <;> cases hf
  rintro ⟨_, h⟩
  cases congrArg List.length h

/-! ## Reports -/

/-- Whatever is made, just these names are added to the methods whose functions refuse to run. -/
def Reports {α : Type} (x : Binder α) (names : List String) : Prop :=
  ∀ notes a notes', x.run notes = .ok (a, notes') → notes'.stubbed = notes.stubbed ++ names

namespace Reports

variable {α β : Type} {x : Binder α} {f : α → Binder β} {names more : List String}

theorem pure (a : α) : Reports (Pure.pure a) [] := by
  intro notes a' notes' h
  cases h
  exact (List.append_nil _).symm

theorem bind (hx : Reports x names) (hf : ∀ a, Reports (f a) more) :
    Reports (x >>= f) (names ++ more) := by
  intro notes b notes'' h
  obtain ⟨a, notes', ha, hb⟩ := run_bind_ok.mp h
  rw [hf a notes' b notes'' hb, hx notes a notes' ha, List.append_assoc]

theorem lift (y : Except Failure α) : Reports (liftM y) [] := by
  intro notes a notes' h
  obtain ⟨-, rfl⟩ := run_lift_ok h
  exact (List.append_nil _).symm

theorem get : Reports (MonadState.get : Binder Notes) [] := by
  intro notes a notes' h
  cases h
  exact (List.append_nil _).symm

theorem modify {change : Notes → Notes}
    (h : ∀ notes, (change notes).stubbed = notes.stubbed ++ names) :
    Reports (modify change) names := by
  intro notes a notes' hrun
  cases hrun
  exact h notes

theorem throw (e : Failure) : Reports (MonadExcept.throw e : Binder α) names := by
  intro notes a notes' h
  cases h

/-- Steps that report nothing, one after the other. -/
theorem bind_nil (hx : Reports x []) (hf : ∀ a, Reports (f a) more) : Reports (x >>= f) more :=
  hx.bind hf

/-- A step, and an answer made of what it gave. -/
theorem bind_pure {g : α → β} (hx : Reports x names) :
    Reports (x >>= fun a => Pure.pure (g a)) names :=
  List.append_nil names ▸ hx.bind fun a => .pure (g a)

end Reports

theorem reference?_reports (fullName : String) (depth : Nat) :
    Reports (reference? c fullName depth) [] := by
  unfold reference?
  split
  · exact .pure _
  split
  · exact .pure _
  refine .bind_nil (.lift _) fun names => .bind_nil .get fun notes => ?_
  split
  refine .bind_nil (.modify fun _ => (List.append_nil _).symm) fun _ => ?_
  split <;> exact (Reports.lift _).bind_pure

theorem elementType_reports (owner : String) (depth : Nat) (f : SchemaBindings.Field) :
    Reports (elementType c owner depth f) [] := by
  unfold elementType
  split
  · split
    · exact .pure _
    · exact .throw _
  · refine .bind_nil (reference?_reports _ depth) fun o => ?_
    cases o with
    | none => exact .throw _
    | some t =>
      dsimp only
      split <;> exact .pure _

theorem structFields_reports (owner : String) (depth : Nat) (fields : List SchemaBindings.Field)
    (names : Naming.Table) : Reports (structFields c owner depth fields names) [] := by
  induction fields generalizing names with
  | nil => exact .pure _
  | cons f rest ih =>
    unfold structFields structField
    refine .bind_nil ?_ fun first => (ih _).bind_pure
    exact .bind_nil (.lift _) fun _ => (elementType_reports owner depth f).bind_pure

mutual

theorem messageItems_reports (m : Message) (scope : String) (depth : Nat) :
    Reports (messageItems c scope depth m) [] := by
  obtain ⟨name, fields, messages, enums, docs⟩ := m
  rw [messageItems]
  refine .bind_nil (.lift _) fun ident => ?_
  refine .bind_nil (structFields_reports _ depth fields _) fun emitted => ?_
  dsimp only
  split
  · exact .pure _
  · refine .bind_nil (.lift _) fun module => .bind_nil (.lift _) fun enumItems => ?_
    exact (allMessageItems_reports messages _ _).bind_pure

theorem allMessageItems_reports (ms : List Message) (scope : String) (depth : Nat) :
    Reports (allMessageItems c scope depth ms) [] := by
  match ms with
  | [] =>
    rw [allMessageItems]
    exact .pure _
  | m :: rest =>
    rw [allMessageItems]
    refine .bind_nil (messageItems_reports m scope depth) fun first => ?_
    exact (allMessageItems_reports rest scope depth).bind_pure

end

/-- What a client adds to the report: nothing if it is the one that suspends. -/
def reportOf (mode : Mode) (names : List String) : List String :=
  if mode = .blocking then names else []

theorem noteUnsupported_reports (mode : Mode) (s : Service) (m : Method) :
    Reports (noteUnsupported c mode s m)
      (reportOf mode (if m.streamsRequestsOnly then [s.fullName ++ "." ++ m.name] else [])) := by
  intro notes a notes' h
  unfold noteUnsupported at h
  rw [m.isSupported_shape] at h
  unfold reportOf
  cases hm : m.streamsRequestsOnly with
  | false =>
    rw [hm] at h
    cases h
    simp
  | true =>
    rw [hm] at h
    dsimp only at h
    rw [if_neg (by simp)] at h
    split at h
    · cases h
    split at h <;> cases h <;> simp [*]

theorem methodType_reports (s : Service) (m : Method) (fullName : String) :
    Reports (methodType c s m fullName) [] := by
  unfold methodType
  refine .bind_nil (reference?_reports fullName 0) fun o => ?_
  cases o with
  | none => exact .throw _
  | some t => exact .pure _

theorem reportOf_append (mode : Mode) (names more : List String) :
    reportOf mode names ++ reportOf mode more = reportOf mode (names ++ more) := by
  unfold reportOf
  split <;> rfl

theorem methodFunctions_reports (mode : Mode) (s : Service) (methods : List Method)
    (names : Naming.Table) : Reports (methodFunctions c mode s methods names)
      (reportOf mode ((methods.filter (·.streamsRequestsOnly)).map
        fun m => s.fullName ++ "." ++ m.name)) := by
  induction methods generalizing names with
  | nil =>
    have hnil : reportOf mode [] = [] := by cases mode <;> rfl
    exact hnil ▸ .pure _
  | cons m rest ih =>
    have hreport : reportOf mode (((m :: rest).filter (·.streamsRequestsOnly)).map
        fun m => s.fullName ++ "." ++ m.name) =
        reportOf mode (if m.streamsRequestsOnly then [s.fullName ++ "." ++ m.name] else []) ++
          reportOf mode ((rest.filter (·.streamsRequestsOnly)).map
            fun m => s.fullName ++ "." ++ m.name) := by
      rw [reportOf_append, List.filter_cons]
      split <;> rfl
    rw [hreport]
    unfold methodFunctions
    refine .bind (noteUnsupported_reports mode s m) fun _ => ?_
    refine .bind_nil (methodType_reports s m _) fun request => ?_
    refine .bind_nil (methodType_reports s m _) fun response => ?_
    exact .bind_nil (.lift _) fun name => (ih _).bind_pure

theorem clientItems_reports (mode : Mode) (s : Service) :
    Reports (clientItems c mode s) (reportOf mode s.unsupported) := by
  unfold clientItems
  exact .bind_nil (.lift _) fun name => (methodFunctions_reports mode s s.methods _).bind_pure

/-- Though a service has two clients, its methods are reported once. -/
theorem serviceItems_reports (services : List Service) :
    Reports (serviceItems c services) (services.flatMap Service.unsupported) := by
  induction services with
  | nil => exact .pure _
  | cons s rest ih =>
    unfold serviceItems
    refine .bind (clientItems_reports .blocking s) fun blocking => ?_
    exact .bind_nil (clientItems_reports .suspending s) fun suspending => ih.bind_pure

theorem moduleFile_reports (f : SchemaFile) : Reports (moduleFile c f) f.unsupported := by
  unfold moduleFile
  refine .bind_nil (.lift _) fun enums => ?_
  refine .bind_nil (allMessageItems_reports f.messages f.package 0) fun messages => ?_
  exact (serviceItems_reports f.services).bind_pure

/-! ## Clients -/

/-- The function that is made for a method. While unsupported methods are refused, it is none of
these. -/
def FunctionMade (c : Context) (s : Service) (mode : Mode) (m : Method) (f : Function) : Prop :=
  (c.unimplemented = .failFast → m.streamsRequestsOnly = false) ∧
    ∃ name request response, f = Call.function ⟨s.fullName, m, mode, name, request, response⟩
      c.library

/-- The client that is made for a service in a mode. -/
def ClientMade (c : Context) (client : Service × Mode) (item : Item) : Prop :=
  ∃ name functions, name.text = client.1.clientName c.asyncPrefix client.2 ∧
    item = .client name (some client.1.fullName) (constructor c client.2 :: functions) ∧
      List.Forall₂ (FunctionMade c client.1 client.2) client.1.methods functions

theorem methodFunctions_made {mode : Mode} {s : Service} {methods : List Method}
    {names : Naming.Table} {functions : List Function}
    (h : (methodFunctions c mode s methods names).run notes = .ok (functions, notes')) :
    List.Forall₂ (FunctionMade c s mode) methods functions := by
  induction methods generalizing names functions notes with
  | nil =>
    cases h
    exact .nil
  | cons m rest ih =>
    unfold methodFunctions at h
    obtain ⟨_, _, hnote, h⟩ := run_bind_ok.mp h
    obtain ⟨request, _, -, h⟩ := run_bind_ok.mp h
    obtain ⟨response, _, -, h⟩ := run_bind_ok.mp h
    obtain ⟨name, _, -, h⟩ := run_bind_ok.mp h
    obtain ⟨others, _, hothers, h⟩ := run_bind_ok.mp h
    cases h
    refine .cons ⟨fun hfail => ?_, name, request, response, rfl⟩ (ih hothers)
    unfold noteUnsupported at hnote
    rw [m.isSupported_shape] at hnote
    cases hm : m.streamsRequestsOnly with
    | false => rfl
    | true =>
      rw [hm] at hnote
      dsimp only at hnote
      rw [if_neg (by simp), if_pos hfail] at hnote
      cases hnote

theorem clientItems_made {mode : Mode} {s : Service} {items : List Item}
    (h : (clientItems c mode s).run notes = .ok (items, notes')) :
    ∃ item, items.filter Item.isClient = [item] ∧ ClientMade c (s, mode) item := by
  unfold clientItems at h
  obtain ⟨name, _, hlift, h⟩ := run_bind_ok.mp h
  obtain ⟨hname, rfl⟩ := run_lift_ok hlift
  obtain ⟨functions, _, hfunctions, h⟩ := run_bind_ok.mp h
  cases h
  refine ⟨_, rfl, name, functions, ?_, rfl, methodFunctions_made hfunctions⟩
  rw [Ident.text_of_ofName hname]
  cases mode <;> rfl

theorem serviceItems_made {services : List Service} {items : List Item}
    (h : (serviceItems c services).run notes = .ok (items, notes')) :
    List.Forall₂ (ClientMade c) (services.flatMap fun s => [(s, .blocking), (s, .suspending)])
      (items.filter Item.isClient) := by
  induction services generalizing items notes with
  | nil =>
    cases h
    exact .nil
  | cons s rest ih =>
    unfold serviceItems at h
    obtain ⟨blocking, _, hblocking, h⟩ := run_bind_ok.mp h
    obtain ⟨suspending, _, hsuspending, h⟩ := run_bind_ok.mp h
    obtain ⟨others, _, hothers, h⟩ := run_bind_ok.mp h
    cases h
    obtain ⟨first, hfirst, hfirstMade⟩ := clientItems_made hblocking
    obtain ⟨second, hsecond, hsecondMade⟩ := clientItems_made hsuspending
    rw [List.filter_append, List.filter_append, hfirst, hsecond]
    exact .cons hfirstMade (.cons hsecondMade (ih hothers))

theorem clients_of_enums {scope : String} {enums : List SchemaBindings.Enum} {items : List Item}
    (h : enums.mapM (enumItem c scope) = .ok items) : items.filter Item.isClient = [] := by
  refine List.filter_eq_nil_iff.mpr fun item hm => ?_
  obtain ⟨e, -, he⟩ := exists_mem_left (mapM_ok.mp h) hm
  obtain ⟨_, _, _, rfl, -⟩ := enumItem_ok he
  exact Bool.false_ne_true

theorem MessagesEmitted.clients {final : ImportSet} {scope : String} {depth : Nat}
    {ms : List Message} {items : List Item} (h : MessagesEmitted c final scope depth ms items) :
    items.filter Item.isClient = [] := by
  induction h with
  | nil => rfl
  | plain _ _ _ ih => exact ih
  | nested _ _ _ _ _ _ _ ih => exact ih

/-- The clients of a module are those of its services, one for each mode. -/
theorem moduleFile_made {f : SchemaFile} {file : File}
    (h : (moduleFile c f).run {} = .ok (file, notes)) :
    List.Forall₂ (ClientMade c) f.servicesByMode (file.items.filter Item.isClient) := by
  unfold moduleFile at h
  obtain ⟨enums, _, hlift, h⟩ := run_bind_ok.mp h
  obtain ⟨henums, rfl⟩ := run_lift_ok hlift
  obtain ⟨messages, _, hmessages, h⟩ := run_bind_ok.mp h
  obtain ⟨services, _, hservices, h⟩ := run_bind_ok.mp h
  cases h
  -- Neither enumerations nor messages leave clients, so those are what the services left.
  obtain ⟨-, -, hemitted⟩ := allMessageItems_ensures f.messages f.package 0 _ _ _ hmessages
    (.empty c)
  rw [List.filter_append, List.filter_append, clients_of_enums henums,
    (hemitted _ (.refl _)).clients]
  exact serviceItems_made hservices

end Binding

end SchemaBindings
