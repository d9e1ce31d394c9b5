import SchemaBindings.Proofs.Binding.Extension
import SchemaBindings.Proofs.Binding.Failures
import SchemaBindings.Proofs.Binding.Refusals

/-!
The items of a schema that nothing can be made for, each with the failure that says so. They are
listed in the order in which a module is made, and a module whose definitions are registered fails
because of the first of them, unless what is wrong lies in the generated code.
-/

namespace SchemaBindings

open Code

/-- The failures for which one item of a schema is to blame. -/
def Failure.IsOffence : Failure → Prop
  | .unknownScalar .. | .unresolvedType .. | .unsupportedMethod .. | .emptyEnum _ => True
  | _ => False

/-- What the items of a schema may name, and whether methods that are not supported are refused. -/
@[ext]
structure Terms where
  isScalar : String → Bool
  isType : String → Bool
  refusesMethods : Bool

/-! ## Offences -/

/-- A reference of a field or a method to a full name. -/
def Terms.ofReference (t : Terms) (owner item fullName : String) : List Failure :=
  if t.isType fullName then [] else [.unresolvedType owner item fullName]

def Field.offences (t : Terms) (owner : String) (f : Field) : List Failure :=
  match f.type with
  | .scalar kind => if t.isScalar kind then [] else [.unknownScalar owner f.name kind]
  | .named fullName => t.ofReference owner f.name fullName

def Enum.offences (scope : String) (e : Enum) : List Failure :=
  if e.values.isEmpty then [.emptyEnum (qualify scope e.name)] else []

mutual

/-- A message's fields come first, then the enums that are nested in it, then the messages. -/
def Message.offences (t : Terms) (scope : String) : Message → List Failure
  | ⟨name, fields, messages, enums, _⟩ =>
    fields.flatMap (Field.offences t (qualify scope name)) ++
      (enums.flatMap (Enum.offences (qualify scope name)) ++
        messageOffences t (qualify scope name) messages)

def messageOffences (t : Terms) (scope : String) : List Message → List Failure
  | [] => []
  | m :: rest => m.offences t scope ++ messageOffences t scope rest

end

/-- A method that is refused is not looked at any further. -/
def Service.offencesOf (t : Terms) (s : Service) (m : Method) : List Failure :=
  (if t.refusesMethods && m.streamsRequestsOnly then [.unsupportedMethod s.fullName m.name]
    else []) ++
      (t.ofReference s.fullName m.name m.inputType ++ t.ofReference s.fullName m.name m.outputType)

def Service.offences (t : Terms) (s : Service) : List Failure :=
  s.methods.flatMap (s.offencesOf t)

/-- A file's enums come first, then its messages, then its services. -/
def SchemaFile.offences (t : Terms) (f : SchemaFile) : List Failure :=
  f.enums.flatMap (Enum.offences f.package) ++
    (messageOffences t f.package f.messages ++ f.services.flatMap (Service.offences t))

/-! ## Steps that find offences -/

/-- A step fails because of the first offence or for a reason that lies in the generated code, and
it does not succeed if there is an offence. -/
def Finds {α : Type} (x : Except Failure α) (offences : List Failure) : Prop :=
  (∀ e, x = .error e → offences.head? = some e ∨ e.IsDefect) ∧ ∀ a, x = .ok a → offences = []

namespace Finds

variable {α β : Type} {x : Except Failure α} {os os' : List Failure}

theorem ok (a : α) : Finds (.ok a) [] :=
  ⟨nofun, fun _ _ => rfl⟩

theorem error (e : Failure) : Finds (.error e : Except Failure α) [e] :=
  ⟨fun _ he => .inl (congrArg some (Except.error.inj he)), nofun⟩

theorem of_yields {P : α → Prop} (h : Yields Failure.IsDefect x P) : Finds x [] :=
  ⟨fun e he => .inr (h.1 e he), fun _ _ => rfl⟩

theorem bind {f : α → Except Failure β} (hx : Finds x os)
    (hf : ∀ a, x = .ok a → Finds (f a) os') : Finds (x >>= f) (os ++ os') := by
  cases x with
  | error e =>
    refine ⟨fun e' he => ?_, nofun⟩
    cases he
    refine (hx.1 e rfl).imp_left fun hfirst => ?_
    rw [List.head?_append, hfirst]
    rfl
  | ok a =>
    rw [hx.2 a rfl]
    exact hf a rfl

/-- What follows can fail because of the generated code only. -/
theorem bind_nil {f : α → Except Failure β} (hx : Finds x os)
    (hf : ∀ a, x = .ok a → Finds (f a) []) : Finds (x >>= f) os :=
  List.append_nil os ▸ hx.bind hf

theorem nil_bind {f : α → Except Failure β} (hx : Finds x [])
    (hf : ∀ a, x = .ok a → Finds (f a) os) : Finds (x >>= f) os :=
  hx.bind hf

/-- The same step for every element of a list. -/
theorem mapM {f : α → Except Failure β} {offences : α → List Failure} {as : List α}
    (h : ∀ a ∈ as, Finds (f a) (offences a)) : Finds (as.mapM f) (as.flatMap offences) := by
  induction as with
  | nil => exact .ok []
  | cons a rest ih =>
    obtain ⟨ha, hrest⟩ := List.forall_mem_cons.mp h
    rw [List.mapM_cons, List.flatMap_cons]
    exact ha.bind fun b _ => (ih hrest).bind_nil fun bs _ => .ok _

/-- Looking for the same offences once more finds no others. -/
theorem of_twice (h : Finds x (os ++ (os ++ os'))) : Finds x (os ++ os') := by
  cases os with
  | nil => exact h
  | cons o os => exact ⟨h.1, fun a ha => absurd (h.2 a ha) (List.cons_ne_nil _ _)⟩

end Finds

namespace Binding

/-- Whatever was noted before, a part of a module finds the offences. -/
def Finds {α : Type} (x : Binder α) (offences : List Failure) : Prop :=
  ∀ notes, SchemaBindings.Finds (x.run notes) offences

namespace Finds

variable {α β : Type} {x : Binder α} {f : α → Binder β} {os os' : List Failure}

theorem pure (a : α) : Finds (Pure.pure a) [] :=
  fun _ => .ok _

theorem throw (e : Failure) : Finds (MonadExcept.throw e : Binder α) [e] :=
  fun _ => .error e

theorem lift {y : Except Failure α} (h : SchemaBindings.Finds y os) : Finds (liftM y) os :=
  fun _ => h.bind_nil fun _ _ => .ok _

theorem bind (hx : Finds x os) (hf : ∀ a, Finds (f a) os') : Finds (x >>= f) (os ++ os') := by
  intro notes
  rw [StateT.run_bind]
  exact (hx notes).bind fun r _ => hf r.1 r.2

theorem bind_nil (hx : Finds x os) (hf : ∀ a, Finds (f a) []) : Finds (x >>= f) os :=
  List.append_nil os ▸ hx.bind hf

theorem nil_bind (hx : Finds x []) (hf : ∀ a, Finds (f a) os) : Finds (x >>= f) os :=
  hx.bind hf

/-- The last step, after which what was made is put together. -/
theorem bind_pure {g : α → β} (hx : Finds x os) : Finds (do return g (← x)) os :=
  hx.bind_nil fun _ => .pure _

end Finds

variable {c : Context}

/-- What the items of a file may name when its module is made. -/
def Context.terms (c : Context) : Terms where
  isScalar kind := (c.types.scalar? kind).isSome
  isType fullName := (c.types.extern? fullName).isSome || (c.symbols.get? fullName).isSome
  refusesMethods := c.unimplemented = .failFast

theorem isScalar_terms {kind : String} :
    c.terms.isScalar kind = (c.types.scalar? kind).isSome :=
  rfl

theorem refusesMethods_terms : c.terms.refusesMethods = true ↔ c.unimplemented = .failFast :=
  decide_eq_true_iff

theorem isType_terms {fullName : String} : c.terms.isType fullName = true ↔ c.Knows fullName :=
  Bool.or_eq_true_iff

/-! ## Names and references -/

theorem ofName_finds (name : String) : SchemaBindings.Finds (Ident.ofName name) [] :=
  .of_yields (ofName_yields fun h => absurd trivial h)

/-- Something is registered under the full name. -/
def Context.Registers (c : Context) (fullName : String) : Prop :=
  (c.symbols.get? fullName).isSome = true

theorem definedName_finds {fullName : String} (h : c.Registers fullName) :
    SchemaBindings.Finds (definedName c fullName) [] := by
  obtain ⟨s, hs⟩ := Option.isSome_iff_exists.mp h
  rw [definedName, hs]
  exact ofName_finds _

/-- A reference is an offence exactly if nothing stands for it, however it is told. -/
theorem reference?_finds (owner item fullName : String) (depth : ℕ) {α : Type}
    {f : Option Ty → Binder α} (hsome : ∀ t, Finds (f (some t)) [])
    (hnone : f none = throw (.unresolvedType owner item fullName)) :
    Finds (reference? c fullName depth >>= f) (c.terms.ofReference owner item fullName) := by
  unfold Terms.ofReference
  by_cases hk : c.Knows fullName
  · rw [if_pos (isType_terms.mpr hk)]
    intro notes
    rw [StateT.run_bind]
    have hyields : SchemaBindings.Yields Failure.IsDefect ((reference? c fullName depth).run notes)
        fun r => c.Knows fullName → r.1.isSome = true :=
      reference?_yields (fun h => absurd trivial h) fullName depth notes
    refine (SchemaBindings.Finds.of_yields hyields).nil_bind fun r hr => ?_
    obtain ⟨t, ht⟩ := Option.isSome_iff_exists.mp (hyields.2 r hr hk)
    rw [ht]
    exact hsome t r.2
  · rw [if_neg (mt isType_terms.mp hk), reference?_unknown hk, pure_bind, hnone]
    exact .throw _

/-! ## Fields -/

theorem elementType_finds (owner : String) (depth : ℕ) (f : SchemaBindings.Field) :
    Finds (elementType c owner depth f) (f.offences c.terms owner) := by
  unfold elementType Field.offences
  cases f.type with
  | scalar kind =>
    dsimp only
    rw [isScalar_terms]
    cases c.types.scalar? kind with
    | none => exact .throw _
    | some t => exact .pure t
  | named fullName =>
    refine reference?_finds owner f.name fullName depth (fun t => ?_) rfl
    dsimp only
    split <;> exact .pure _

theorem structFields_finds (owner : String) (depth : ℕ) (fields : List SchemaBindings.Field)
    (names : Naming.Table) : Finds (structFields c owner depth fields names)
      (fields.flatMap (Field.offences c.terms owner)) := by
  induction fields generalizing names with
  | nil => exact .pure _
  | cons f rest ih =>
    unfold structFields structField
    rw [List.flatMap_cons]
    refine .bind ?_ fun first => (ih _).bind_pure
    exact .nil_bind (.lift (ofName_finds _)) fun _ => (elementType_finds owner depth f).bind_pure

/-! ## Definitions -/

theorem enumItem_finds {scope : String} {e : SchemaBindings.Enum}
    (h : c.Registers (qualify scope e.name)) :
    SchemaBindings.Finds (enumItem c scope e) (e.offences scope) := by
  unfold enumItem Enum.offences
  refine (definedName_finds h).nil_bind fun name _ => ?_
  split
  · next hvalues =>
    rw [hvalues]
    exact .error _
  · next first rest hvalues =>
    rw [hvalues]
    have hvariants : SchemaBindings.Yields Failure.IsDefect
        (enumVariants (defaultNumber first (first :: rest)) (first :: rest) []
          { scope := qualify scope e.name }) fun _ => True :=
      enumVariants_yields _ (fun h => absurd trivial h) ..
    exact (SchemaBindings.Finds.of_yields hvariants).bind_nil fun _ _ => .ok _

/-- A message and the enums in it are registered. -/
structure Context.RegistersPlaced (c : Context) (p : PlacedMessage) : Prop where
  message : c.Registers p.fullName
  enums : ∀ e ∈ p.message.enums, c.Registers (qualify p.fullName e.name)

mutual

theorem messageItems_finds (m : SchemaBindings.Message) (scope : String) (depth : ℕ)
    (h : ∀ p ∈ m.placed scope, c.RegistersPlaced p) :
    Finds (messageItems c scope depth m) (m.offences c.terms scope) := by
  have hself : c.RegistersPlaced ⟨scope, [], m⟩ := h _ (mem_placed.mpr (.inl rfl))
  have hnested : ∀ q ∈ placedMessages (qualify scope m.name) m.messages, c.RegistersPlaced q := by
    intro q hq
    obtain ⟨hmessage, henums⟩ := h (q.inside (Naming.moduleName m.name))
      (mem_placed.mpr (.inr ⟨q, hq, rfl⟩))
    exact ⟨hmessage, henums⟩
  obtain ⟨name, fields, messages, enums, docs⟩ := m
  rw [messageItems, Message.offences]
  refine .nil_bind (.lift (definedName_finds hself.message)) fun ident => ?_
  refine .bind (structFields_finds _ depth fields _) fun emitted => ?_
  dsimp only
  split
  · next hplain =>
    obtain ⟨hmessages, henums⟩ := Bool.and_eq_true_iff.mp hplain
    rw [List.isEmpty_iff.mp hmessages, List.isEmpty_iff.mp henums]
    exact .pure _
  · refine .nil_bind (.lift (ofName_finds _)) fun module => ?_
    refine .bind (.lift (.mapM fun e he => enumItem_finds (hself.enums e he))) fun enumItems => ?_
    exact (allMessageItems_finds messages _ _ hnested).bind_pure

theorem allMessageItems_finds (ms : List SchemaBindings.Message) (scope : String) (depth : ℕ)
    (h : ∀ p ∈ placedMessages scope ms, c.RegistersPlaced p) :
    Finds (allMessageItems c scope depth ms) (messageOffences c.terms scope ms) := by
  match ms with
  | [] =>
    rw [allMessageItems, messageOffences]
    exact .pure _
  | m :: rest =>
    rw [allMessageItems, messageOffences]
    refine .bind (messageItems_finds m scope depth fun p hp => h p ?_) fun first => ?_
    · exact mem_placedMessages_cons.mpr (.inl hp)
    · refine (allMessageItems_finds rest scope depth fun p hp => h p ?_).bind_pure
      exact mem_placedMessages_cons.mpr (.inr hp)

end

/-! ## Services -/

theorem noteUnsupported_finds (mode : Mode) (s : Service) (m : Method) :
    Finds (noteUnsupported c mode s m)
      (if c.terms.refusesMethods && m.streamsRequestsOnly then
        [.unsupportedMethod s.fullName m.name] else []) := by
  have hnote (change : Notes → Notes) :
      Finds (if mode = .blocking then modify change else pure () : Binder Unit) [] := by
    split
    · exact fun _ => .ok _
    · exact .pure _
  unfold noteUnsupported
  rw [m.isSupported_shape]
  cases m.streamsRequestsOnly with
  | false =>
    rw [Bool.and_false]
    exact .pure _
  | true =>
    rw [Bool.and_true]
    dsimp only
    rw [if_neg (by decide)]
    by_cases hpolicy : c.unimplemented = .failFast
    · rw [if_pos hpolicy, if_pos (refusesMethods_terms.mpr hpolicy)]
      exact (Finds.throw _).bind_nil fun _ => hnote _
    · rw [if_neg hpolicy, if_neg (mt refusesMethods_terms.mp hpolicy)]
      exact hnote _

theorem methodType_finds (s : Service) (m : Method) (fullName : String) :
    Finds (methodType c s m fullName) (c.terms.ofReference s.fullName m.name fullName) := by
  unfold methodType
  exact reference?_finds s.fullName m.name fullName 0 (fun _ => .pure _) rfl

theorem methodFunctions_finds (mode : Mode) (s : Service) (methods : List Method)
    (names : Naming.Table) : Finds (methodFunctions c mode s methods names)
      (methods.flatMap (s.offencesOf c.terms)) := by
  induction methods generalizing names with
  | nil => exact .pure _
  | cons m rest ih =>
    unfold methodFunctions
    rw [List.flatMap_cons, Service.offencesOf, List.append_assoc, List.append_assoc]
    refine .bind (noteUnsupported_finds mode s m) fun _ => ?_
    refine .bind (methodType_finds s m _) fun request => ?_
    refine .bind (methodType_finds s m _) fun response => ?_
    exact .nil_bind (.lift (ofName_finds _)) fun name => (ih _).bind_pure

theorem clientItems_finds (mode : Mode) (s : Service) :
    Finds (clientItems c mode s) (s.offences c.terms) := by
  unfold clientItems
  exact .nil_bind (.lift (ofName_finds _)) fun name =>
    (methodFunctions_finds mode s s.methods _).bind_pure

/-- Both clients of a service find the same offences, the one that blocks before the other. -/
theorem serviceItems_finds (services : List Service) :
    Finds (serviceItems c services) (services.flatMap (Service.offences c.terms)) := by
  induction services with
  | nil => exact .pure _
  | cons s rest ih =>
    unfold serviceItems
    rw [List.flatMap_cons]
    intro notes
    refine SchemaBindings.Finds.of_twice (Finds.bind (clientItems_finds .blocking s) ?_ notes)
    intro blocking
    exact .bind (clientItems_finds .suspending s) fun suspending => ih.bind_pure

theorem moduleFile_finds {f : SchemaFile} (h : ∀ d, f.Defines d → c.Registers d.1) :
    Finds (moduleFile c f) (f.offences c.terms) := by
  unfold moduleFile SchemaFile.offences
  refine .bind (.lift (.mapM fun e he => enumItem_finds (h _ (.enum e he)))) fun enums => ?_
  refine .bind (allMessageItems_finds f.messages f.package 0 fun p hp => ?_) fun messages => ?_
  · exact ⟨h _ (.message p hp), fun e he => h _ (.nestedEnum p hp e he)⟩
  · exact (serviceItems_finds f.services).bind_pure

end Binding

end SchemaBindings
