import SchemaBindings.Binding.Module
import SchemaBindings.Proofs.Binding.Reference
import SchemaBindings.Proofs.Code.Paths
import SchemaBindings.Proofs.Descriptor.Conversion
import SchemaBindings.Proofs.Faultless
import SchemaBindings.Proofs.Schema.Identifiers

/-!
When the module of a schema file fails because of a name: a reference is unresolved only if nothing
stands for its full name, and a name is unusable only if one that comes from the schema or the
settings is. What else can be wrong is left open here.
-/

namespace SchemaBindings

open Code Naming

/-- A full name that nothing stands for. -/
def Failure.IsUnresolved : Failure → Prop
  | .unresolvedType .. => True
  | _ => False

/-- What can be wrong with a schema or the code that is generated for it. Methods that are not
supported are wrong only while they are refused. -/
def Failure.OfGeneration (policy : UnimplementedPolicy) : Failure → Prop
  | .unsupportedMethod .. => policy = .failFast
  | .unknownScalar .. | .nameCollision .. | .unresolvedType .. | .emptyEnum _ | .unregistered _
  | .malformedCode | .unusableName | .unprintable => True
  | _ => False

namespace Binding

/-- Whatever a module is generated against has names that can be used where it is referred to. -/
structure Context.HasUsableNames (c : Context) : Prop where
  symbols : ∀ fullName s, c.symbols.get? fullName = some s → s.IsUsable
  root : beginsType c.root = true
  clients : ∀ s : Service, isIdentifier s.name = true → s.name ≠ "_" →
    (Ident.ofText? (SymbolTable.suspendingName c.asyncPrefix s)).isSome = true

/-- Failures that may happen for other reasons than names, and for names if one of them is bad. -/
structure Allows (allowed : Failure → Prop) (c : Context) : Prop where
  other : ∀ e : Failure, e.OfGeneration c.unimplemented → ¬ e.IsUnresolved → e ≠ .unusableName →
    allowed e
  names : ¬ allowed .unusableName → c.HasUsableNames

/-- A full name is known where it may not be unresolved. -/
def Context.Meets (c : Context) (allowed : Failure → Prop) (fullName : String) : Prop :=
  ∀ owner field, ¬ allowed (.unresolvedType owner field fullName) → c.Knows fullName

variable {allowed : Failure → Prop} {c : Context}

theorem ofName_yields {name : String}
    (h : ¬ allowed .unusableName → (Ident.ofText? name).isSome = true) :
    SchemaBindings.Yields allowed (Ident.ofName name) fun _ => True := by
  unfold Ident.ofName
  split
  · exact .ok trivial
  · next hnone =>
    refine .error (by_contra fun hn => ?_)
    rw [hnone] at h
    exact Bool.false_ne_true (h hn)

theorem ofUsable_yields {name : String} (h : ¬ allowed .unusableName → IsUsable name) :
    SchemaBindings.Yields allowed (Ident.ofName name) fun _ => True :=
  ofName_yields fun hn => (h hn).isSome_ofText?

theorem ofUsables_yields {names : List String}
    (h : ¬ allowed .unusableName → ∀ name ∈ names, IsUsable name) :
    SchemaBindings.Yields allowed (names.mapM Ident.ofName) fun idents =>
      idents.map (·.text) = names := by
  have hall := Yields.mapM fun name hname => ofUsable_yields fun hn => h hn name hname
  exact ⟨hall.1, fun idents hidents => Ident.texts_of_mapM hidents⟩

/-! ## References -/

theorem contains_underscore {names : List Ident} (h : ∀ name ∈ names.map (·.text), IsUsable name) :
    names.contains underscore = false := by
  refine Bool.eq_false_iff.mpr fun hmem => ?_
  have hkeyword : "_" ∈ keywords := by decide
  have htext : "_" ∈ names.map (·.text) :=
    List.mem_map.mpr ⟨underscore, List.contains_iff_mem.mp hmem, rfl⟩
  exact (h "_" htext).free hkeyword

theorem relativeType_yields (depth : ℕ) {names : List Ident}
    (h : ¬ allowed .unusableName → ∀ name ∈ names.map (·.text), IsUsable name) :
    SchemaBindings.Yields allowed (relativeType depth names) fun _ => True := by
  unfold relativeType
  split
  · exact .ok trivial
  split
  · next hunderscore =>
    refine .error (by_contra fun hn => ?_)
    rw [contains_underscore (h hn)] at hunderscore
    cases hunderscore
  · exact .ok trivial

/-- What is put behind a path that can begin a type can begin one, too. -/
theorem beginsType_appendIdents {root : Path} (hroot : beginsType root = true)
    {names : List Ident} (h : ∀ name ∈ names.map (·.text), IsUsable name) :
    beginsType (root.appendIdents names) = true := by
  obtain ⟨leading, segments⟩ := root
  cases segments with
  | cons s rest => exact hroot
  | nil =>
    cases names with
    | nil => exact hroot
    | cons name rest =>
      have hname : name.text ≠ "try" :=
        (h name.text (List.mem_map_of_mem List.mem_cons_self)).ne_try
      simp [beginsType, Path.appendIdents, Path.segments, Segment.ident, hname]

theorem path_yields (module : ModuleId) (root : Path)
    (h : ¬ allowed .unusableName → ∀ name ∈ module.segments, IsUsable name) :
    SchemaBindings.Yields allowed (module.path root) fun p =>
      ∃ idents : List Ident, idents.map (·.text) = module.segments ∧
        p = root.appendIdents idents := by
  unfold ModuleId.path
  exact (ofUsables_yields h).map fun idents hidents => ⟨idents, hidents, rfl⟩

theorem absoluteType_yields {root : Path} {module : ModuleId} {names : List Ident}
    (hroot : ¬ allowed .unusableName → beginsType root = true)
    (hm : ¬ allowed .unusableName → ∀ name ∈ module.segments, IsUsable name)
    (h : ¬ allowed .unusableName → ∀ name ∈ names.map (·.text), IsUsable name) :
    SchemaBindings.Yields allowed (absoluteType root module names) fun _ => True := by
  unfold absoluteType
  refine (path_yields module root hm).bind fun p _ hp => ?_
  obtain ⟨idents, hidents, rfl⟩ := hp
  dsimp only
  split
  · next hbad =>
    refine .error (by_contra fun hn => ?_)
    have hbegins : beginsType ((root.appendIdents idents).appendIdents names) = true :=
      beginsType_appendIdents (beginsType_appendIdents (hroot hn) (hidents ▸ hm hn)) (h hn)
    rw [contains_underscore (h hn), hbegins] at hbad
    cases hbad
  · exact .ok trivial

/-- A reference to what is known becomes a type. -/
theorem reference?_yields (ha : ¬ allowed .unusableName → c.HasUsableNames) (fullName : String)
    (depth : ℕ) :
    Yields allowed (reference? c fullName depth) fun o =>
      c.Knows fullName → o.isSome = true := by
  have hsome {x : Except Failure Ty} (hx : SchemaBindings.Yields allowed x fun _ => True) :
      Yields allowed (do return some (← x) : Binder (Option Ty)) fun o =>
        c.Knows fullName → o.isSome = true :=
    .bindLift hx fun t _ => .pure fun _ => rfl
  unfold reference?
  split
  · exact .pure fun _ => rfl
  · next hext =>
    split
    · next hnone =>
      refine .pure fun h => ?_
      rcases h with h | h
      · rw [hext] at h
        cases h
      · rw [hnone] at h
        cases h
    · next s hs =>
      have husable (hn : ¬ allowed .unusableName) : s.IsUsable :=
        (ha hn).symbols fullName s hs
      refine .bindLift (ofUsables_yields fun hn => (husable hn).path) fun names hnames => ?_
      refine .bind (P := fun _ => True) (fun _ => .ok trivial) fun notes _ => ?_
      generalize claimHead c s notes.imports = claimed
      refine .bind (P := fun _ => True) (fun _ => .ok trivial) fun _ _ => ?_
      have hpath (hn : ¬ allowed .unusableName) : ∀ name ∈ names.map (·.text), IsUsable name :=
        hnames ▸ (husable hn).path
      split
      · exact hsome (relativeType_yields depth hpath)
      · exact hsome (absoluteType_yields (fun hn => (ha hn).root)
          (fun hn => (husable hn).module) hpath)

/-! ## Fields -/

theorem elementType_yields (ha : Allows allowed c) {f : SchemaBindings.Field}
    (h : ∀ name, f.reference? = some name → c.Meets allowed name) (owner : String) (depth : ℕ) :
    Yields allowed (elementType c owner depth f) fun _ => True := by
  unfold elementType
  split
  · split
    · exact .pure trivial
    · exact .throw (ha.other _ trivial not_false nofun)
  · next fullName htype =>
    have hmeets : c.Meets allowed fullName := h fullName (by rw [Field.reference?, htype])
    refine .bind (reference?_yields ha.names fullName depth) fun o ho => ?_
    split
    · refine .throw (by_contra fun hn => ?_)
      cases ho (hmeets owner f.name hn)
    · split
      · exact .pure trivial
      · exact .pure trivial

theorem structField_yields (ha : Allows allowed c) {f : SchemaBindings.Field}
    (h : ∀ name, f.reference? = some name → c.Meets allowed name) (owner : String) (depth : ℕ)
    {name : String} (hname : ¬ allowed .unusableName → IsUsable name) :
    Yields allowed (structField c owner depth name f) fun _ => True := by
  unfold structField
  refine .bindLift (ofUsable_yields hname) fun ident _ => ?_
  exact (elementType_yields ha h owner depth).bind fun _ _ => .pure trivial

theorem structFields_yields (ha : Allows allowed c) (owner : String) (depth : ℕ)
    {fields : List SchemaBindings.Field}
    (h : ∀ name ∈ fields.filterMap Field.reference?, c.Meets allowed name)
    (hi : ¬ allowed .unusableName → ∀ f ∈ fields, isIdentifier f.name = true)
    (names : Naming.Table) :
    Yields allowed (structFields c owner depth fields names) fun _ => True := by
  induction fields generalizing names with
  | nil => exact .pure trivial
  | cons f rest ih =>
    have hfirst : ∀ name, f.reference? = some name → c.Meets allowed name := fun name hname =>
      h name (List.mem_filterMap.mpr ⟨f, List.mem_cons_self, hname⟩)
    have hrest : ∀ name ∈ rest.filterMap Field.reference?, c.Meets allowed name := by
      intro name hname
      obtain ⟨f', hf', hname⟩ := List.mem_filterMap.mp hname
      exact h name (List.mem_filterMap.mpr ⟨f', List.mem_cons_of_mem f hf', hname⟩)
    unfold structFields
    refine .bind (structField_yields ha hfirst owner depth fun hn => ?_) fun first _ => ?_
    · have hf := hi hn f List.mem_cons_self
      exact (isUsable_fieldName (ascii_of_isIdentifier hf)).assignUnique names
    · refine (ih hrest (fun hn f hf => hi hn f (List.mem_cons_of_mem _ hf)) _).bind fun _ _ => ?_
      exact .pure trivial

/-! ## Definitions -/

theorem definedName_yields (ha : Allows allowed c) (fullName : String) :
    SchemaBindings.Yields allowed (definedName c fullName) fun _ => True := by
  unfold definedName
  split
  · exact .error (ha.other _ trivial not_false nofun)
  · next s hs => exact ofUsable_yields fun hn => ((ha.names hn).symbols fullName s hs).name

theorem enumVariants_yields (default : Int) {values : List EnumValue}
    (h : ¬ allowed .unusableName → ∀ v ∈ values, isIdentifier v.label = true) (seen : List Int)
    (names : Naming.Table) :
    SchemaBindings.Yields allowed (enumVariants default values seen names) fun _ => True := by
  induction values generalizing seen names with
  | nil => exact .ok trivial
  | cons v rest ih =>
    have hrest (hn : ¬ allowed .unusableName) : ∀ v ∈ rest, isIdentifier v.label = true :=
      fun v hv => h hn v (List.mem_cons_of_mem _ hv)
    unfold enumVariants
    split
    · exact ih hrest _ _
    · refine .bind (ofUsable_yields fun hn => ?_) fun name _ _ => ?_
      · have hv := h hn v List.mem_cons_self
        exact (isUsable_variantName (ascii_of_isIdentifier hv)).assignUnique names
      · exact (ih hrest _ _).bind fun _ _ _ => .ok trivial

theorem enumItem_yields (ha : Allows allowed c) (scope : String) {e : SchemaBindings.Enum}
    (h : ¬ allowed .unusableName → e.HasIdentifiers) :
    SchemaBindings.Yields allowed (enumItem c scope e) fun _ => True := by
  unfold enumItem
  refine .bind (definedName_yields ha _) fun name _ _ => ?_
  split
  · exact .error (ha.other _ trivial not_false nofun)
  · next first rest hvalues =>
    have hall (hn : ¬ allowed .unusableName) : ∀ v ∈ first :: rest, isIdentifier v.label = true :=
      hvalues ▸ (h hn).values
    exact (enumVariants_yields _ hall ..).bind fun _ _ _ => .ok trivial

mutual

theorem messageItems_yields (ha : Allows allowed c) (m : SchemaBindings.Message) (scope : String)
    (depth : ℕ) (h : ∀ name ∈ referencesWithin (m.placed scope), c.Meets allowed name)
    (hi : ¬ allowed .unusableName → ∀ p ∈ m.placed scope, p.message.HasIdentifiers) :
    Yields allowed (messageItems c scope depth m) fun _ => True := by
  rw [referencesWithin_placed, List.forall_mem_append] at h
  have hself (hn : ¬ allowed .unusableName) : m.HasIdentifiers :=
    hi hn _ (mem_placed.mpr (.inl rfl))
  have hnested (hn : ¬ allowed .unusableName) :
      ∀ q ∈ placedMessages (qualify scope m.name) m.messages, q.message.HasIdentifiers :=
    fun q hq => hi hn (q.inside (moduleName m.name)) (mem_placed.mpr (.inr ⟨q, hq, rfl⟩))
  obtain ⟨messageName, fields, messages, enums, docs⟩ := m
  rw [messageItems]
  refine .bindLift (definedName_yields ha _) fun name _ => ?_
  refine .bind (structFields_yields ha _ depth h.1 (fun hn => (hself hn).fields) _)
    fun emitted _ => ?_
  dsimp only
  split
  · exact .pure trivial
  · have hmodule (hn : ¬ allowed .unusableName) : IsUsable (moduleName messageName) :=
      isUsable_moduleName (ascii_of_isIdentifier (hself hn).name)
    refine .bindLift (ofUsable_yields hmodule) fun module _ => ?_
    refine .bindLift (.mapM fun e he => enumItem_yields ha _ fun hn => (hself hn).enums e he)
      fun enums _ => ?_
    exact (allMessageItems_yields ha messages _ _ h.2 hnested).bind fun _ _ => .pure trivial

theorem allMessageItems_yields (ha : Allows allowed c) (ms : List SchemaBindings.Message)
    (scope : String) (depth : ℕ)
    (h : ∀ name ∈ referencesWithin (placedMessages scope ms), c.Meets allowed name)
    (hi : ¬ allowed .unusableName → ∀ p ∈ placedMessages scope ms, p.message.HasIdentifiers) :
    Yields allowed (allMessageItems c scope depth ms) fun _ => True := by
  match ms with
  | [] =>
    rw [allMessageItems]
    exact .pure trivial
  | m :: rest =>
    rw [placedMessages, referencesWithin_append, List.forall_mem_append] at h
    have hfirst (hn : ¬ allowed .unusableName) : ∀ p ∈ m.placed scope, p.message.HasIdentifiers :=
      fun p hp => hi hn p (mem_placedMessages_cons.mpr (.inl hp))
    have hrest (hn : ¬ allowed .unusableName) :
        ∀ p ∈ placedMessages scope rest, p.message.HasIdentifiers :=
      fun p hp => hi hn p (mem_placedMessages_cons.mpr (.inr hp))
    rw [allMessageItems]
    refine .bind (messageItems_yields ha m scope depth h.1 hfirst) fun first _ => ?_
    exact (allMessageItems_yields ha rest scope depth h.2 hrest).bind fun _ _ => .pure trivial

end

/-! ## Services -/

theorem noteUnsupported_yields (ha : Allows allowed c) (mode : Mode) (s : Service) (m : Method) :
    Yields allowed (noteUnsupported c mode s m) fun _ => True := by
  have hnote (change : Notes → Notes) :
      Yields allowed (if mode = .blocking then modify change else pure () : Binder Unit)
        fun _ => True := by
    split
    · exact fun _ => .ok trivial
    · exact .pure trivial
  unfold noteUnsupported
  split
  · exact .pure trivial
  dsimp only
  split
  · next hrefused =>
    exact .bind (P := fun _ => True) (.throw (ha.other _ hrefused not_false nofun)) fun _ _ =>
      hnote _
  · exact hnote _

theorem methodType_yields (ha : Allows allowed c) (s : Service) (m : Method) {fullName : String}
    (h : c.Meets allowed fullName) : Yields allowed (methodType c s m fullName) fun _ => True := by
  unfold methodType
  refine .bind (reference?_yields ha.names fullName 0) fun o ho => ?_
  split
  · exact .pure trivial
  · refine .throw (by_contra fun hn => ?_)
    cases ho (h s.fullName m.name hn)

theorem methodFunctions_yields (ha : Allows allowed c) (mode : Mode) (s : Service)
    {methods : List Method}
    (h : ∀ m ∈ methods, c.Meets allowed m.inputType ∧ c.Meets allowed m.outputType)
    (hi : ¬ allowed .unusableName → ∀ m ∈ methods, isIdentifier m.name = true)
    (names : Naming.Table) :
    Yields allowed (methodFunctions c mode s methods names) fun _ => True := by
  induction methods generalizing names with
  | nil => exact .pure trivial
  | cons m rest ih =>
    obtain ⟨⟨hinput, houtput⟩, hrest⟩ := List.forall_mem_cons.mp h
    have hname (hn : ¬ allowed .unusableName) :
        IsUsable (names.assignUnique (methodName m.name)).1 :=
      (isUsable_methodName (ascii_of_isIdentifier (hi hn m List.mem_cons_self))).assignUnique names
    unfold methodFunctions
    refine .bind (noteUnsupported_yields ha mode s m) fun _ _ => ?_
    refine .bind (methodType_yields ha s m hinput) fun request _ => ?_
    refine .bind (methodType_yields ha s m houtput) fun response _ => ?_
    refine .bindLift (ofUsable_yields hname) fun name _ => ?_
    refine (ih hrest (fun hn m hm => hi hn m (List.mem_cons_of_mem _ hm)) _).bind fun _ _ => ?_
    exact .pure trivial

theorem clientItems_yields (ha : Allows allowed c) (mode : Mode) {s : Service}
    (h : ∀ name ∈ s.references, c.Meets allowed name)
    (hi : ¬ allowed .unusableName → s.HasIdentifiers ∧ s.name ≠ "_") :
    Yields allowed (clientItems c mode s) fun _ => True := by
  have hmethods : ∀ m ∈ s.methods, c.Meets allowed m.inputType ∧ c.Meets allowed m.outputType := by
    intro m hm
    constructor
    · exact h _ (List.mem_flatMap.mpr ⟨m, hm, List.mem_cons_self⟩)
    · exact h _ (List.mem_flatMap.mpr ⟨m, hm, List.mem_cons_of_mem _ List.mem_cons_self⟩)
  have hname (hn : ¬ allowed .unusableName) :
      (Ident.ofText? (clientName c mode s)).isSome = true := by
    obtain ⟨hs, hother⟩ := hi hn
    cases mode with
    | blocking => exact (isUsable_typeName hs.name hother).isSome_ofText?
    | suspending => exact (ha.names hn).clients s hs.name hother
  unfold clientItems
  refine .bindLift (ofName_yields hname) fun name _ => ?_
  refine (methodFunctions_yields ha mode s hmethods (fun hn => (hi hn).1.methods) _).bind
    fun _ _ => .pure trivial

theorem serviceItems_yields (ha : Allows allowed c) {services : List Service}
    (h : ∀ name ∈ services.flatMap Service.references, c.Meets allowed name)
    (hi : ¬ allowed .unusableName → ∀ s ∈ services, s.HasIdentifiers ∧ s.name ≠ "_") :
    Yields allowed (serviceItems c services) fun _ => True := by
  induction services with
  | nil => exact .pure trivial
  | cons s rest ih =>
    rw [List.flatMap_cons, List.forall_mem_append] at h
    have hfirst (hn : ¬ allowed .unusableName) := hi hn s List.mem_cons_self
    rw [serviceItems]
    refine .bind (clientItems_yields ha .blocking h.1 hfirst) fun _ _ => ?_
    refine .bind (clientItems_yields ha .suspending h.1 hfirst) fun _ _ => ?_
    refine (ih h.2 fun hn s hs => hi hn s (List.mem_cons_of_mem _ hs)).bind fun _ _ => ?_
    exact .pure trivial

/-- The module of a schema file fails in allowed ways only: no reference is unresolved if all of
them are known, and no name is unusable if all names come from identifiers. -/
theorem moduleFile_yields (ha : Allows allowed c) {f : SchemaFile}
    (h : ∀ name ∈ f.references, c.Meets allowed name)
    (hi : ¬ allowed .unusableName → f.HasIdentifiers ∧ "_" ∉ f.typeNames) :
    Yields allowed (moduleFile c f) fun _ => True := by
  rw [SchemaFile.references, List.forall_mem_append] at h
  unfold moduleFile
  refine .bindLift (.mapM fun e he => enumItem_yields ha _ fun hn => (hi hn).1.enums e he)
    fun enums _ => ?_
  refine .bind (allMessageItems_yields ha _ _ _ h.1 fun hn => (hi hn).1.messages)
    fun messages _ => ?_
  refine (serviceItems_yields ha h.2 fun hn s hs => ⟨(hi hn).1.services s hs, ?_⟩).bind
    fun _ _ => .pure trivial
  have hmem := SchemaFile.mem_typeNames.mpr (.inr (.inr ⟨s, hs, rfl⟩))
  exact ne_of_mem_of_not_mem hmem (hi hn).2

end Binding

end SchemaBindings
