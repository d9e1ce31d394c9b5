import SchemaBindings.Proofs.Binding.Call
import SchemaBindings.Proofs.Binding.Failures

/-!
Everything that is made for a schema file of identifiers is settled, and nothing gets in the way of
making it but what is wrong with the schema.
-/

namespace SchemaBindings

open Code Naming

namespace Binding

/-- What a module is generated against has usable names and settled types. -/
structure Context.IsSettled (c : Context) : Prop extends c.HasUsableNames where
  types : ∀ e ∈ c.types.scalars ++ c.types.externTypes, e.2.Settled
  library : c.library.IsGlobal
  rootPlain : c.root.isPlain = true
  asyncPrefix : c.asyncPrefix ≠ ""

variable {c : Context}

theorem ofName_faultless {name : String} (h : IsUsable name) :
    SchemaBindings.Faultless (Ident.ofName name) fun i => i.isName = true :=
  .of_eq_ok h.ofName h.isName

/-! ## References -/

theorem forall_text {names : List String} (h : ∀ name ∈ names, IsUsable name) :
    ∀ name ∈ (names.map Ident.mk).map (·.text), IsUsable name := by
  rw [List.map_map]
  simpa using h

theorem relativeType_faultless {names : List String} (h : ∀ name ∈ names, IsUsable name)
    (depth : Nat) :
    SchemaBindings.Faultless (relativeType depth (names.map Ident.mk)) Ty.Settled := by
  have hnone := contains_underscore (forall_text h)
  unfold relativeType
  split
  · next hone =>
    rw [hone.2] at hnone
    cases hnone
  · rw [hnone]
    refine .ok (.path ?_)
    simp [Path.isPlain, Path.segments, Segment.isPlain]

theorem absoluteType_faultless (hc : c.IsSettled) {module : ModuleId} {names : List String}
    (hm : ∀ name ∈ module.segments, IsUsable name) (h : ∀ name ∈ names, IsUsable name) :
    SchemaBindings.Faultless (absoluteType c.root module (names.map Ident.mk)) Ty.Settled := by
  let p := (c.root.appendIdents (module.segments.map Ident.mk)).appendIdents (names.map Ident.mk)
  have hbegins : beginsType p = true :=
    beginsType_appendIdents (beginsType_appendIdents hc.root (forall_text hm)) (forall_text h)
  have hdone : absoluteType c.root module (names.map Ident.mk) = .ok (.path p) := by
    have hfits : ((names.map Ident.mk).contains underscore || !beginsType p) = false := by
      rw [contains_underscore (forall_text h), hbegins]
      rfl
    rw [absoluteType, path_of_isUsable hm]
    exact if_neg (Bool.eq_false_iff.mp hfits)
  refine .of_eq_ok hdone (.path ?_)
  exact Path.isPlain_appendIdents (Path.isPlain_appendIdents hc.rootPlain _) _

theorem reference?_faultless (hc : c.IsSettled) (fullName : String) (depth : Nat) :
    Faultless (reference? c fullName depth) fun o => ∀ t, o = some t → t.Settled := by
  have hsome {x : Except Failure Ty} (h : SchemaBindings.Faultless x Ty.Settled) :
      Faultless (do return some (← x) : Binder (Option Ty)) fun o => ∀ t, o = some t → t.Settled :=
    .bindLift h fun t ht => .pure fun t' he => Option.some.inj he ▸ ht
  unfold reference?
  split
  · next t ht =>
    have hsettled := hc.types _ (List.mem_append_right _ (mem_of_lookup ht))
    exact .pure fun t' he => Option.some.inj he ▸ hsettled
  split
  · exact .pure nofun
  · next s hs =>
    have hpath := (hc.symbols fullName s hs).path
    refine .bindLift (.of_eq_ok (mapM_ofName hpath) rfl) fun names hnames => ?_
    subst hnames
    refine .bind (P := fun _ => True) (fun _ => .ok trivial) fun notes _ => ?_
    generalize claimHead c s notes.imports = claimed
    refine .bind (P := fun _ => True) (fun _ => .ok trivial) fun _ _ => ?_
    split
    · exact hsome (relativeType_faultless hpath depth)
    · exact hsome (absoluteType_faultless hc (hc.symbols fullName s hs).module hpath)

/-! ## Fields -/

theorem isWellFormed_fieldAttribute (h : c.library.fieldAttribute.text ≠ "try")
    (f : SchemaBindings.Field) : (fieldAttribute c f).isWellFormed = true := by
  simp [fieldAttribute, Attribute.isWellFormed, Path.namesAttribute, Path.isPlain, Path.segments,
    Segment.isPlain, Segment.ident, h]

theorem settled_global {names : List String} {t : Ty}
    (hn : (Path.ofNames true names).isGlobal = true) (h : t.Settled) :
    (Ty.global names t).Settled :=
  .applied hn h

theorem elementType_faultless (hc : c.IsSettled) (owner : String) (depth : Nat)
    (f : SchemaBindings.Field) : Faultless (elementType c owner depth f) Ty.Settled := by
  unfold elementType
  split
  · split
    · next t ht => exact .pure (hc.types _ (List.mem_append_left _ (mem_of_lookup ht)))
    · exact .throw nofun
  · next fullName _ =>
    refine .bind (reference?_faultless hc fullName depth) fun o ho => ?_
    split
    · exact .throw nofun
    · next t =>
      split
      · exact .pure (settled_global rfl (ho t rfl))
      · exact .pure (ho t rfl)

theorem settled_withCardinality {t : Ty} (h : t.Settled) (cardinality : Cardinality) :
    (withCardinality t cardinality).Settled := by
  cases cardinality with
  | singular => exact h
  | optional => exact settled_global rfl h
  | repeated => exact settled_global rfl h

theorem structField_faultless (hc : c.IsSettled) (owner : String) (depth : Nat) {name : String}
    (hn : IsUsable name) (f : SchemaBindings.Field) :
    Faultless (structField c owner depth name f) StructField.Settled := by
  unfold structField
  refine .bindLift (ofName_faultless hn) fun ident hident => ?_
  refine .bind (elementType_faultless hc owner depth f) fun element he => .pure ⟨?_, hident, ?_⟩
  · simp [isWellFormed_docAttributes, isWellFormed_fieldAttribute hc.library.fieldAttribute]
  · exact settled_withCardinality he f.cardinality

theorem structFields_faultless (hc : c.IsSettled) (owner : String) (depth : Nat)
    {fields : List SchemaBindings.Field} (h : ∀ f ∈ fields, isIdentifier f.name = true)
    (names : Table) : Faultless (structFields c owner depth fields names)
      fun emitted => ∀ f ∈ emitted, f.Settled := by
  induction fields generalizing names with
  | nil => exact .pure nofun
  | cons f rest ih =>
    obtain ⟨hf, hrest⟩ := List.forall_mem_cons.mp h
    have hname := (isUsable_fieldName (ascii_of_isIdentifier hf)).assignUnique names
    unfold structFields
    refine .bind (structField_faultless hc owner depth hname f) fun first hfirst => ?_
    refine .bind (ih hrest _) fun others hothers => ?_
    exact .pure (List.forall_mem_cons.mpr ⟨hfirst, hothers⟩)

/-! ## Enums -/

theorem definedName_faultless (hc : c.IsSettled) (fullName : String) :
    SchemaBindings.Faultless (definedName c fullName) fun name => name.isName = true := by
  unfold definedName
  split
  · exact .error nofun
  · next s hs =>
    exact ofName_faultless (hc.symbols fullName s hs).name

theorem settled_variant (v : EnumValue) {name : Ident} (hn : name.isName = true)
    {mark : List Attribute} (hm : mark.all Attribute.isWellFormed = true) :
    (⟨docAttributes v.docs ++ mark, name, discriminant v.number⟩ : Variant).Settled where
  attributes := by rw [List.all_append, isWellFormed_docAttributes, hm, Bool.and_self]
  name := hn
  wellFormed := by
    unfold discriminant
    dsimp only
    split <;> rfl
  known := by
    intro r
    unfold discriminant
    dsimp only
    split <;> rfl

theorem enumVariants_faultless (default : Int) {values : List EnumValue}
    (h : ∀ v ∈ values, isIdentifier v.label = true) (seen : List Int) (names : Table) :
    SchemaBindings.Faultless (enumVariants default values seen names)
      fun variants => ∀ v ∈ variants, v.Settled := by
  induction values generalizing seen names with
  | nil => exact .ok nofun
  | cons v rest ih =>
    obtain ⟨hv, hrest⟩ := List.forall_mem_cons.mp h
    have hname := (isUsable_variantName (ascii_of_isIdentifier hv)).assignUnique names
    unfold enumVariants
    split
    · exact ih hrest _ _
    · refine .bind (ofName_faultless hname) fun name _ hn => ?_
      refine .bind (ih hrest _ _) fun others _ hothers => .ok ?_
      refine List.forall_mem_cons.mpr ⟨settled_variant v hn ?_, hothers⟩
      split <;> rfl

theorem enumItem_faultless (hc : c.IsSettled) (scope : String) {e : SchemaBindings.Enum}
    (h : e.HasIdentifiers) : SchemaBindings.Faultless (enumItem c scope e) Item.Settled := by
  unfold enumItem
  refine .bind (definedName_faultless hc _) fun name _ hn => ?_
  split
  · exact .error nofun
  · next first rest hvalues =>
    have hall : ∀ v ∈ first :: rest, isIdentifier v.label = true := hvalues ▸ h.values
    refine .bind (enumVariants_faultless _ hall _ _) fun variants _ hvariants => .ok ?_
    refine .enum ?_ hn hvariants
    rw [List.all_append, isWellFormed_docAttributes]
    rfl

theorem enumItems_faultless (hc : c.IsSettled) (scope : String)
    {enums : List SchemaBindings.Enum} (h : ∀ e ∈ enums, e.HasIdentifiers) :
    SchemaBindings.Faultless (enums.mapM (enumItem c scope)) fun items => ∀ i ∈ items, i.Settled :=
  .mapM fun e he => enumItem_faultless hc scope (h e he)

/-! ## Messages -/

mutual

theorem messageItems_faultless (hc : c.IsSettled) (m : Message) (scope : String) (depth : Nat)
    (h : ∀ p ∈ m.placed scope, p.message.HasIdentifiers) :
    Faultless (messageItems c scope depth m) fun items => ∀ i ∈ items, i.Settled := by
  obtain ⟨messageName, fields, messages, enums, docs⟩ := m
  have hself : Message.HasIdentifiers ⟨messageName, fields, messages, enums, docs⟩ :=
    h _ (mem_placed.mpr (.inl rfl))
  have hnested : ∀ q ∈ placedMessages (qualify scope messageName) messages,
      q.message.HasIdentifiers := fun q hq =>
    h (q.inside (moduleName messageName)) (mem_placed.mpr (.inr ⟨q, hq, rfl⟩))
  rw [messageItems]
  refine .bindLift (definedName_faultless hc _) fun name hn => ?_
  refine .bind (structFields_faultless hc _ depth hself.fields _) fun emitted he => ?_
  have hstruct : (Item.struct (docAttributes docs ++
      [deriveAttribute ["Debug", "Clone", "PartialEq"] c.library.messageDerive]) name
      emitted).Settled := by
    refine .struct ?_ hn he
    rw [List.all_append, isWellFormed_docAttributes]
    rfl
  dsimp only
  split
  · exact .pure (List.forall_mem_singleton.mpr hstruct)
  · have hmodule := isUsable_moduleName (ascii_of_isIdentifier hself.name)
    refine .bindLift (ofName_faultless hmodule) fun module hmodule => ?_
    refine .bindLift (enumItems_faultless hc _ hself.enums) fun enumItems henums => ?_
    refine .bind (allMessageItems_faultless hc messages _ _ hnested) fun items hitems => ?_
    refine .pure (List.forall_mem_cons.mpr ⟨hstruct, List.forall_mem_singleton.mpr ?_⟩)
    exact .module rfl hmodule (List.forall_mem_append.mpr ⟨henums, hitems⟩)

theorem allMessageItems_faultless (hc : c.IsSettled) (ms : List Message) (scope : String)
    (depth : Nat) (h : ∀ p ∈ placedMessages scope ms, p.message.HasIdentifiers) :
    Faultless (allMessageItems c scope depth ms) fun items => ∀ i ∈ items, i.Settled := by
  match ms with
  | [] =>
    rw [allMessageItems]
    exact .pure nofun
  | m :: rest =>
    rw [allMessageItems]
    refine .bind (messageItems_faultless hc m scope depth fun p hp =>
      h p (mem_placedMessages_cons.mpr (.inl hp))) fun first hfirst => ?_
    refine .bind (allMessageItems_faultless hc rest scope depth fun p hp =>
      h p (mem_placedMessages_cons.mpr (.inr hp))) fun others hothers => ?_
    exact .pure (List.forall_mem_append.mpr ⟨hfirst, hothers⟩)

end

/-! ## Services -/

theorem noteUnsupported_faultless (mode : Mode) (s : Service) (m : Method) :
    Faultless (noteUnsupported c mode s m) fun _ => True := by
  have hnote (change : Notes → Notes) :
      Faultless (if mode = .blocking then modify change else pure () : Binder Unit)
        fun _ => True := by
    split
    · exact fun _ => .ok trivial
    · exact .pure trivial
  unfold noteUnsupported
  split
  · exact .pure trivial
  dsimp only
  split
  · exact .bind (P := fun _ => True) (.throw nofun) fun _ _ => hnote _
  · exact hnote _

theorem methodType_faultless (hc : c.IsSettled) (s : Service) (m : Method) (fullName : String) :
    Faultless (methodType c s m fullName) Ty.Settled := by
  unfold methodType
  refine .bind (reference?_faultless hc fullName 0) fun o ho => ?_
  split
  · exact .pure (ho _ rfl)
  · exact .throw nofun

theorem methodFunctions_faultless (hc : c.IsSettled) (mode : Mode) (s : Service)
    {methods : List Method} (h : ∀ m ∈ methods, isIdentifier m.name = true) (names : Table) :
    Faultless (methodFunctions c mode s methods names)
      fun functions => ∀ f ∈ functions, f.Settled := by
  induction methods generalizing names with
  | nil => exact .pure nofun
  | cons m rest ih =>
    obtain ⟨hm, hrest⟩ := List.forall_mem_cons.mp h
    have hname := (isUsable_methodName (ascii_of_isIdentifier hm)).assignUnique names
    unfold methodFunctions
    refine .bind (noteUnsupported_faultless mode s m) fun _ _ => ?_
    refine .bind (methodType_faultless hc s m _) fun request hrequest => ?_
    refine .bind (methodType_faultless hc s m _) fun response hresponse => ?_
    refine .bindLift (ofName_faultless hname) fun name hn => ?_
    refine .bind (ih hrest _) fun others hothers => .pure ?_
    exact List.forall_mem_cons.mpr
      ⟨Call.settled_function _ hc.library hn hrequest hresponse, hothers⟩

theorem settled_constructor (hc : c.IsSettled) (mode : Mode) : (constructor c mode).Settled where
  attributes := rfl
  name := rfl
  parameters := by
    simp only [constructor, List.forall_mem_cons]
    exact ⟨hc.library.stub mode, hc.library.types _ (by simp [SupportLibrary.types]),
      List.forall_mem_nil _⟩
  output := .path rfl
  body := List.forall_mem_singleton.mpr
    (.result (.ofVariables _ rfl rfl) (beginsItem_of_word (by decide) _))

theorem isWellFormed_clientDocs (mode : Mode) (s : Service) :
    (clientDocs mode s).all Attribute.isWellFormed = true := by
  unfold clientDocs
  rw [List.all_cons, List.all_append, isWellFormed_docAttributes]
  split <;> rfl

theorem clientName_faultless (hc : c.IsSettled) (mode : Mode) {s : Service}
    (h : isIdentifier s.name = true) (hother : s.name ≠ "_") :
    SchemaBindings.Faultless (Ident.ofName (clientName c mode s)) fun i => i.isName = true := by
  cases mode with
  | blocking => exact ofName_faultless (isUsable_typeName h hother)
  | suspending =>
    obtain ⟨ident, hident⟩ := Option.isSome_iff_exists.mp (hc.clients s h hother)
    have hname : Ident.ofName (clientName c .suspending s) = .ok ident := by
      rw [Ident.ofName, clientName, hident]
    have hfree := notMem_safeIdentifier (prefixed_ne_underscore hc.asyncPrefix h)
    refine .of_eq_ok hname ?_
    rw [Ident.isName, Ident.text_of_ofName hname]
    simpa [clientName, SymbolTable.suspendingName, typeName] using hfree

theorem clientItems_faultless (hc : c.IsSettled) (mode : Mode) {s : Service}
    (h : s.HasIdentifiers) (hother : s.name ≠ "_") :
    Faultless (clientItems c mode s) fun items => ∀ i ∈ items, i.Settled := by
  have hfield {name : String} (hname : (Ident.mk name).isName = true) {t : Ty} (ht : t.Settled) :
      (⟨[], false, ⟨name⟩, t⟩ : StructField).Settled := ⟨rfl, hname, ht⟩
  unfold clientItems
  refine .bindLift (clientName_faultless hc mode h.name hother) fun name hname => ?_
  refine .bind (methodFunctions_faultless hc mode s h.methods _) fun functions hf => .pure ?_
  simp only [List.forall_mem_cons]
  refine ⟨.struct (isWellFormed_clientDocs mode s) hname ?_,
    .implementation (.named name) ?_ ?_, List.forall_mem_nil _⟩
  · simp only [List.forall_mem_cons]
    exact ⟨hfield rfl (hc.library.stub mode),
      hfield rfl (hc.library.types _ (by simp [SupportLibrary.types])), List.forall_mem_nil _⟩
  · rintro _ ⟨⟩
    exact Constant.settled_wireName s.fullName
  · exact List.forall_mem_cons.mpr ⟨settled_constructor hc mode, hf⟩

theorem serviceItems_faultless (hc : c.IsSettled) {services : List Service}
    (h : ∀ s ∈ services, s.HasIdentifiers ∧ s.name ≠ "_") :
    Faultless (serviceItems c services) fun items => ∀ i ∈ items, i.Settled := by
  induction services with
  | nil => exact .pure nofun
  | cons s rest ih =>
    obtain ⟨⟨hs, hname⟩, hrest⟩ := List.forall_mem_cons.mp h
    rw [serviceItems]
    refine .bind (clientItems_faultless hc .blocking hs hname) fun blocking hblocking => ?_
    refine .bind (clientItems_faultless hc .suspending hs hname) fun suspending hsuspending => ?_
    refine .bind (ih hrest) fun others hothers => .pure ?_
    exact List.forall_mem_append.mpr
      ⟨List.forall_mem_append.mpr ⟨hblocking, hsuspending⟩, hothers⟩

/-- The items that are made for a schema file of identifiers are settled. -/
theorem moduleFile_faultless (hc : c.IsSettled) {f : SchemaFile} (h : f.HasIdentifiers)
    (hs : ∀ s ∈ f.services, s.name ≠ "_") :
    Faultless (moduleFile c f) fun file => ∀ i ∈ file.items, i.Settled := by
  unfold moduleFile
  refine .bindLift (enumItems_faultless hc _ h.enums) fun enums henums => ?_
  refine .bind (allMessageItems_faultless hc _ _ _ h.messages) fun messages hmessages => ?_
  refine .bind (serviceItems_faultless hc fun s hmem => ⟨h.services s hmem, hs s hmem⟩)
    fun services hservices => .pure ?_
  exact List.forall_mem_append.mpr ⟨List.forall_mem_append.mpr ⟨henums, hmessages⟩, hservices⟩

end Binding

end SchemaBindings
