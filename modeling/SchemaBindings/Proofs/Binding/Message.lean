import SchemaBindings.Binding.Message
import SchemaBindings.Proofs.Binding.Reference
import SchemaBindings.Proofs.Code.Paths
import SchemaBindings.Proofs.Code.Scope
import SchemaBindings.Proofs.Schema.Definitions

/-!
The items of messages and enums mirror the schema: every message at any depth has its structure at
its place with a field for every field, and the names of every scope are those of the schema.
-/

namespace SchemaBindings.Binding

open Code

variable {c : Context}

/-! ## Fields -/

/-- The type of one element of a field. -/
def ElementOf (c : Context) (final : ImportSet) (owner : String) (depth : Nat)
    (f : SchemaBindings.Field) (element : Ty) : Prop :=
  match f.type with
  | .scalar kind => c.types.scalar? kind = some element
  | .named fullName => ∃ t, Refers c final depth fullName t ∧
    element =
        if needsBox c owner fullName f.cardinality then .global ["std", "boxed", "Box"] t else t

/-- The field of a structure that stands for a field of the message `owner`. -/
structure FieldEmitted (c : Context) (final : ImportSet) (owner : String) (depth : Nat)
    (f : SchemaBindings.Field) (emitted : StructField) : Prop where
  attributes : emitted.attributes = docAttributes f.docs ++ [fieldAttribute c f]
  isPublic : emitted.isPublic = true
  type : ∃ element, ElementOf c final owner depth f element ∧
    emitted.type = withCardinality element f.cardinality

theorem relocate_withCardinality {r : Relocation} (t : Ty) (cardinality : Cardinality) :
    (withCardinality t cardinality).relocate r =
      withCardinality (t.relocate r) cardinality := by
  cases cardinality
  · rfl
  · exact Ty.relocate_global ..
  · exact Ty.relocate_global ..

theorem elementType_ensures (owner : String) (depth : Nat) (f : SchemaBindings.Field) :
    Ensures c (elementType c owner depth f) fun final element =>
      ElementOf c final owner depth f element := by
  unfold elementType ElementOf
  cases f.type with
  | scalar kind =>
    dsimp only
    split
    · next t ht => exact .pure fun _ => ht
    · exact .throw
  | named fullName =>
    dsimp only
    refine .bind (reference?_ensures c fullName depth) fun o => ?_
    cases o with
    | none => exact .throw
    | some t =>
      dsimp only
      split
      · exact .pure fun final ht => ⟨t, ht t rfl, rfl⟩
      · exact .pure fun final ht => ⟨t, ht t rfl, rfl⟩

theorem structField_ensures (owner : String) (depth : Nat) (name : String)
    (f : SchemaBindings.Field) : Ensures c (structField c owner depth name f) fun final emitted =>
      FieldEmitted c final owner depth f emitted := by
  unfold structField
  refine .bindLift fun ident _ => ?_
  refine .bind (elementType_ensures owner depth f) fun element => ?_
  exact .pure fun final he => ⟨rfl, rfl, element, he, rfl⟩

theorem structFields_ensures (owner : String) (depth : Nat) (fields : List SchemaBindings.Field)
    (names : Naming.Table) : Ensures c (structFields c owner depth fields names)
      fun final emitted => List.Forall₂ (FieldEmitted c final owner depth) fields emitted := by
  induction fields generalizing names with
  | nil => exact .pure fun _ => .nil
  | cons f rest ih =>
    unfold structFields
    refine .bind (structField_ensures owner depth _ f) fun first => ?_
    refine .bind (ih _) fun others => ?_
    exact .pure fun final hothers hfirst => .cons hfirst hothers

/-! ## Enums -/

theorem enumItem_ok {scope : String} {e : SchemaBindings.Enum} {item : Item}
    (h : enumItem c scope e = .ok item) : ∃ attributes name variants,
      item = .enum attributes name variants ∧ definedName c (qualify scope e.name) = .ok name := by
  unfold enumItem at h
  obtain ⟨name, hname, h⟩ := bind_ok.mp h
  split at h
  · cases h
  · obtain ⟨variants, _, h⟩ := bind_ok.mp h
    cases h
    exact ⟨_, name, variants, rfl, hname⟩

theorem inline_of_enums {scope : String} {enums : List SchemaBindings.Enum} {items : List Item}
    (h : enums.mapM (enumItem c scope) = .ok items) : ∀ item ∈ items, item.isInline = true := by
  intro item hm
  obtain ⟨e, -, he⟩ := exists_mem_left (mapM_ok.mp h) hm
  obtain ⟨_, _, _, rfl, -⟩ := enumItem_ok he
  rfl

theorem allNames_of_enums {P : String → Prop} {scope : String} {enums : List SchemaBindings.Enum}
    {items : List Item} (hd : ∀ fullName name, definedName c fullName = .ok name → P name.text)
    (h : enums.mapM (enumItem c scope) = .ok items) : AllNames P items := by
  have hitem {item : Item} (hm : item ∈ items) : ∃ attributes name variants,
      item = .enum attributes name variants ∧ P name.text := by
    obtain ⟨e, -, he⟩ := exists_mem_left (mapM_ok.mp h) hm
    obtain ⟨attributes, name, variants, rfl, hname⟩ := enumItem_ok he
    exact ⟨attributes, name, variants, rfl, hd _ name hname⟩
  refine .mk (fun n hn => ?_) fun attributes name inner hm => ?_
  · rw [introducedNames_of_inline (inline_of_enums h)] at hn
    obtain ⟨item, hm, hname⟩ := List.mem_filterMap.mp hn
    obtain ⟨_, name, _, rfl, hP⟩ := hitem hm
    exact Option.some.inj hname ▸ hP
  · obtain ⟨_, _, _, he, -⟩ := hitem hm
    cases he

/-- The definitions of messages and of their enums are registered under their own names. -/
structure Named (c : Context) (ps : List PlacedMessage) : Prop where
  message : ∀ p ∈ ps, ∀ name, definedName c p.fullName = .ok name →
    name.text = Naming.typeName p.message.name
  enum : ∀ p ∈ ps, ∀ e ∈ p.message.enums, ∀ name,
    definedName c (qualify p.fullName e.name) = .ok name → name.text = Naming.typeName e.name

/-- The items of the enums of a scope. -/
structure EnumsEmitted (c : Context) (scope : String) (enums : List SchemaBindings.Enum)
    (items : List Item) : Prop where
  names : definedNames items = enums.map (Naming.typeName ·.name)
  here : ∀ e ∈ enums, ∃ item, ItemAt items [Naming.typeName e.name] item ∧
    enumItem c scope e = .ok item
  flat : ∀ path attributes name inner, ¬ ItemAt items path (.module attributes name inner)

theorem enumsEmitted {scope : String} {enums : List SchemaBindings.Enum} {items : List Item}
    (hn : ∀ e ∈ enums, ∀ name, definedName c (qualify scope e.name) = .ok name →
      name.text = Naming.typeName e.name)
    (h : enums.mapM (enumItem c scope) = .ok items) : EnumsEmitted c scope enums items := by
  have hall := mapM_ok.mp h
  clear h
  induction hall with
  | nil =>
    refine ⟨rfl, by simp, fun path attributes name inner hp => ?_⟩
    rcases hp with ⟨h, -⟩ | ⟨h, -⟩ <;> cases h
  | @cons e item enums items he _ ih =>
    have hrest := ih fun e he => hn e (List.mem_cons_of_mem _ he)
    obtain ⟨attributes, name, variants, rfl, hname⟩ := enumItem_ok he
    have htext := hn e List.mem_cons_self name hname
    refine ⟨?_, ?_, ?_⟩
    · rw [definedNames_cons, hrest.names, Item.definedName?, htext]
      rfl
    · intro e' he'
      rcases List.mem_cons.mp he' with rfl | he'
      · exact ⟨_, .here List.mem_cons_self (congrArg some htext), he⟩
      · obtain ⟨item, hitem, hemitted⟩ := hrest.here e' he'
        exact ⟨item, hitem.mono (List.subset_cons_self ..), hemitted⟩
    · intro path attributes' name' inner hp
      rcases ItemAt.cons_iff.mp hp with hp | hp
      · rcases hp with ⟨h, -⟩ | ⟨h, -⟩ <;> cases List.mem_singleton.mp h
      · exact hrest.flat path attributes' name' inner hp

/-! ## Messages -/

/-- Items mirror placed messages: their structures and enums stand at their places, and each module
is that of what is nested in a message. -/
structure Mirrors (c : Context) (final : ImportSet) (depth : Nat) (ps : List PlacedMessage)
    (items : List Item) : Prop where
  structs : ∀ p ∈ ps, ∃ attributes name fields,
    ItemAt items p.path (.struct attributes name fields) ∧
      List.Forall₂ (FieldEmitted c final p.fullName (depth + p.parents.length)) p.message.fields
        fields
  enums : ∀ p ∈ ps, ∀ e ∈ p.message.enums, ∃ item,
    ItemAt items (p.inner ++ [Naming.typeName e.name]) item ∧ enumItem c p.fullName e = .ok item
  modules : ∀ path attributes name inner, ItemAt items path (.module attributes name inner) →
    ∃ p ∈ ps, path = p.inner ∧ definedNames inner = p.innerNames
  nested : ∀ p ∈ ps, p.message.hasNested = true → ∃ attributes name inner,
    ItemAt items p.inner (.module attributes name inner) ∧ definedNames inner = p.innerNames

namespace Mirrors

variable {final : ImportSet} {depth : Nat} {ps qs : List PlacedMessage} {items more : List Item}

theorem append (h : Mirrors c final depth ps items) (h' : Mirrors c final depth qs more) :
    Mirrors c final depth (ps ++ qs) (items ++ more) where
  structs := by
    intro p hp
    rcases List.mem_append.mp hp with hp | hp
    · obtain ⟨attributes, name, fields, hi, hf⟩ := h.structs p hp
      exact ⟨attributes, name, fields, ItemAt.append_iff.mpr (.inl hi), hf⟩
    · obtain ⟨attributes, name, fields, hi, hf⟩ := h'.structs p hp
      exact ⟨attributes, name, fields, ItemAt.append_iff.mpr (.inr hi), hf⟩
  enums := by
    intro p hp e he
    rcases List.mem_append.mp hp with hp | hp
    · obtain ⟨item, hi, hitem⟩ := h.enums p hp e he
      exact ⟨item, ItemAt.append_iff.mpr (.inl hi), hitem⟩
    · obtain ⟨item, hi, hitem⟩ := h'.enums p hp e he
      exact ⟨item, ItemAt.append_iff.mpr (.inr hi), hitem⟩
  modules := by
    intro path attributes name inner hm
    rcases ItemAt.append_iff.mp hm with hm | hm
    · obtain ⟨p, hp, hpath⟩ := h.modules path attributes name inner hm
      exact ⟨p, List.mem_append_left _ hp, hpath⟩
    · obtain ⟨p, hp, hpath⟩ := h'.modules path attributes name inner hm
      exact ⟨p, List.mem_append_right _ hp, hpath⟩
  nested := by
    intro p hp hn
    rcases List.mem_append.mp hp with hp | hp
    · obtain ⟨attributes, name, inner, hi, hnames⟩ := h.nested p hp hn
      exact ⟨attributes, name, inner, ItemAt.append_iff.mpr (.inl hi), hnames⟩
    · obtain ⟨attributes, name, inner, hi, hnames⟩ := h'.nested p hp hn
      exact ⟨attributes, name, inner, ItemAt.append_iff.mpr (.inr hi), hnames⟩

/-- Items without modules mirror no messages. -/
theorem of_flat (h : ∀ path attributes name inner,
    ¬ ItemAt items path (.module attributes name inner)) : Mirrors c final depth [] items where
  structs := by simp
  enums := by simp
  modules := fun path attributes name inner hm => absurd hm (h path attributes name inner)
  nested := by simp

/-- The structure of a message without anything nested in it. -/
theorem single {scope : String} {m : Message} {attributes : List Attribute} {name : Ident}
    {fields : List StructField} (hm : m.hasNested = false)
    (hname : name.text = Naming.typeName m.name)
    (hf : List.Forall₂ (FieldEmitted c final (qualify scope m.name) depth) m.fields fields) :
    Mirrors c final depth (m.placed scope) [.struct attributes name fields] := by
  obtain ⟨messageName, mfields, messages, enums, docs⟩ := m
  obtain ⟨rfl, rfl⟩ : messages = [] ∧ enums = [] := by simpa [Message.hasNested] using hm
  have hplaced : Message.placed scope ⟨messageName, mfields, [], [], docs⟩ =
      [⟨scope, [], ⟨messageName, mfields, [], [], docs⟩⟩] := by
    rw [Message.placed, placedMessages, List.map_nil]
  rw [hplaced]
  refine ⟨?_, ?_, ?_, ?_⟩
  · intro p hp
    cases List.mem_singleton.mp hp
    exact ⟨attributes, name, fields, .here List.mem_cons_self (congrArg some hname), hf⟩
  · intro p hp e he
    cases List.mem_singleton.mp hp
    cases he
  · intro path attributes' name' inner hi
    rcases hi with ⟨h, -⟩ | ⟨h, -⟩ <;> cases List.mem_singleton.mp h
  · intro p hp hn
    cases List.mem_singleton.mp hp
    cases hm.symm.trans hn

/-- The structure of a message, and the module of what is nested in it. -/
theorem nest {scope : String} {m : Message} {attributes moduleAttributes : List Attribute}
    {name module : Ident} {fields : List StructField}
    (hname : name.text = Naming.typeName m.name)
    (hmodule : module.text = Naming.moduleName m.name)
    (hf : List.Forall₂ (FieldEmitted c final (qualify scope m.name) depth) m.fields fields)
    (he : EnumsEmitted c (qualify scope m.name) m.enums items)
    (hs : Mirrors c final (depth + 1) (placedMessages (qualify scope m.name) m.messages) more)
    (hnames : definedNames more = m.messages.flatMap Message.names) :
    Mirrors c final depth (m.placed scope)
      [.struct attributes name fields, .module moduleAttributes module (items ++ more)] := by
  have hinner : Mirrors c final (depth + 1) (placedMessages (qualify scope m.name) m.messages)
      (items ++ more) := (of_flat he.flat).append hs
  have hscope : definedNames (items ++ more) = scopeNames m.enums m.messages := by
    rw [definedNames_append, he.names, hnames, scopeNames]
  generalize hall : [Item.struct attributes name fields,
    .module moduleAttributes module (items ++ more)] = all
  have hmem : .module moduleAttributes module (items ++ more) ∈ all := by simp [← hall]
  have hinside {path : List String} {item : Item} (h : ItemAt (items ++ more) path item) :
      ItemAt all (Naming.moduleName m.name :: path) item := hmodule ▸ .inside hmem h
  refine ⟨?_, ?_, ?_, ?_⟩
  · intro p hp
    rcases mem_placed.mp hp with rfl | ⟨q, hq, rfl⟩
    · exact ⟨attributes, name, fields, .here (by simp [← hall]) (congrArg some hname), hf⟩
    · obtain ⟨attributes', name', fields', hi, hf'⟩ := hinner.structs q hq
      have hdepth : depth + (q.parents.length + 1) = depth + 1 + q.parents.length := by omega
      exact ⟨attributes', name', fields', hinside hi, hdepth ▸ hf'⟩
  · intro p hp e hemem
    rcases mem_placed.mp hp with rfl | ⟨q, hq, rfl⟩
    · obtain ⟨item, hi, hitem⟩ := he.here e hemem
      exact ⟨item, hinside (hi.mono (List.subset_append_left ..)), hitem⟩
    · obtain ⟨item, hi, hitem⟩ := hinner.enums q hq e hemem
      exact ⟨item, hinside hi, hitem⟩
  · intro path attributes' name' inner hi
    subst hall
    rcases ItemAt.cons_iff.mp hi with hi | hi
    · rcases hi with ⟨h, -⟩ | ⟨h, -⟩ <;> cases List.mem_singleton.mp h
    rcases hi with ⟨h, hn⟩ | ⟨h, hi⟩ <;> cases List.mem_singleton.mp h
    · cases hn
      exact ⟨⟨scope, [], m⟩, mem_placed.mpr (.inl rfl), congrArg ([·]) hmodule, hscope⟩
    · obtain ⟨q, hq, rfl, hq'⟩ := hinner.modules _ attributes' name' inner hi
      exact ⟨_, mem_placed.mpr (.inr ⟨q, hq, rfl⟩), congrArg (· :: q.inner) hmodule, hq'⟩
  · intro p hp hn
    rcases mem_placed.mp hp with rfl | ⟨q, hq, rfl⟩
    · exact ⟨moduleAttributes, module, items ++ more, .here hmem (congrArg some hmodule), hscope⟩
    · obtain ⟨attributes', name', inner, hi, hq'⟩ := hinner.nested q hq hn
      exact ⟨attributes', name', inner, hinside hi, hq'⟩

end Mirrors

/-- The structure of a message `depth` levels inside a module: the name is the one that the message
is registered under, and there is a field for every field. -/
structure StructEmitted (c : Context) (final : ImportSet) (scope : String) (depth : Nat)
    (m : Message) (name : Ident) (fields : List StructField) : Prop where
  name : definedName c (qualify scope m.name) = .ok name
  fields : List.Forall₂ (FieldEmitted c final (qualify scope m.name) depth) m.fields fields

/-- The items of the messages of a scope, in order: the structure of each and, if something is
nested in it, the module of that. -/
inductive MessagesEmitted (c : Context) (final : ImportSet) :
    String → Nat → List Message → List Item → Prop
  | nil {scope : String} {depth : Nat} : MessagesEmitted c final scope depth [] []
  | plain {scope : String} {depth : Nat} {m : Message} {rest : List Message} {items : List Item}
      {attributes : List Attribute} {name : Ident} {fields : List StructField}
      (hm : m.hasNested = false) (hs : StructEmitted c final scope depth m name fields)
      (hrest : MessagesEmitted c final scope depth rest items) :
    MessagesEmitted c final scope depth (m :: rest) (.struct attributes name fields :: items)
  | nested {scope : String} {depth : Nat} {m : Message} {rest : List Message}
      {enums inner items : List Item} {attributes moduleAttributes : List Attribute}
      {name module : Ident} {fields : List StructField}
      (hm : m.hasNested = true) (hs : StructEmitted c final scope depth m name fields)
      (hmodule : module.text = Naming.moduleName m.name)
      (henums : m.enums.mapM (enumItem c (qualify scope m.name)) = .ok enums)
      (hinner : MessagesEmitted c final (qualify scope m.name) (depth + 1) m.messages inner)
      (hrest : MessagesEmitted c final scope depth rest items) :
    MessagesEmitted c final scope depth (m :: rest)
      (.struct attributes name fields :: .module moduleAttributes module (enums ++ inner) :: items)

namespace MessagesEmitted

variable {final : ImportSet} {scope : String} {depth : Nat} {ms more : List Message}
  {items others : List Item}

theorem append (h : MessagesEmitted c final scope depth ms items)
    (h' : MessagesEmitted c final scope depth more others) :
    MessagesEmitted c final scope depth (ms ++ more) (items ++ others) := by
  induction h with
  | nil => exact h'
  | plain hm hs _ ih => exact .plain hm hs (ih h')
  | nested hm hs hmodule henums hinner _ _ ih =>
    exact .nested hm hs hmodule henums hinner (ih h')

/-- Every message has its structure in the scope that its parents lead to. -/
theorem exists_struct (h : MessagesEmitted c final scope depth ms items) {p : PlacedMessage}
    (hp : p ∈ placedMessages scope ms) : ∃ here attributes name fields,
      ScopeAt items p.parents here ∧ .struct attributes name fields ∈ here ∧
        List.Forall₂ (FieldEmitted c final p.fullName (depth + p.parents.length))
          p.message.fields fields := by
  induction h generalizing p with
  | nil =>
    rw [placedMessages] at hp
    cases hp
  | @plain scope depth m rest items attributes name fields hm hs _ ih =>
    rcases mem_placedMessages_cons.mp hp with hp | hp
    · obtain ⟨hmessages, -⟩ : m.messages = [] ∧ m.enums = [] := by
        simpa [Message.hasNested] using hm
      rw [mem_placed, hmessages, placedMessages] at hp
      obtain rfl : p = ⟨scope, [], m⟩ := by simpa using hp
      exact ⟨_, attributes, name, fields, .here, List.mem_cons_self, hs.fields⟩
    · obtain ⟨here, as, n, fs, hscope, hmem, hf⟩ := ih hp
      obtain ⟨here', hscope', hsub⟩ := hscope.mono (List.subset_cons_self ..)
      exact ⟨here', as, n, fs, hscope', hsub hmem, hf⟩
  | @nested scope depth m rest enums inner items attributes moduleAttributes name module fields hm
      hs hmodule _ _ _ ihinner ih =>
    rcases mem_placedMessages_cons.mp hp with hp | hp
    · rcases mem_placed.mp hp with rfl | ⟨q, hq, rfl⟩
      · exact ⟨_, attributes, name, fields, .here, List.mem_cons_self, hs.fields⟩
      · obtain ⟨here, as, n, fs, hscope, hmem, hf⟩ := ihinner hq
        obtain ⟨here', hscope', hsub⟩ := hscope.mono (List.subset_append_right enums inner)
        have hdepth : depth + 1 + q.parents.length = depth + (q.parents.length + 1) := by omega
        refine ⟨here', as, n, fs, ?_, hsub hmem, hdepth ▸ hf⟩
        exact hmodule ▸ .inside (List.mem_cons_of_mem _ List.mem_cons_self) hscope'
    · obtain ⟨here, as, n, fs, hscope, hmem, hf⟩ := ih hp
      obtain ⟨here', hscope', hsub⟩ := hscope.mono
        (List.subset_cons_of_subset _ (List.subset_cons_self _ items))
      exact ⟨here', as, n, fs, hscope', hsub hmem, hf⟩

/-- Whatever holds of the names that definitions are registered under and of those of the modules
holds of all names. -/
theorem allNames {P : String → Prop} (h : MessagesEmitted c final scope depth ms items)
    (hd : ∀ fullName name, definedName c fullName = .ok name → P name.text)
    (hm : ∀ p ∈ placedMessages scope ms, p.message.hasNested = true →
      P (Naming.moduleName p.message.name)) : AllNames P items := by
  induction h with
  | nil => exact .mk nofun nofun
  | @plain scope depth m rest items attributes name fields _ hs _ ih =>
    have hrest := ih fun p hp => hm p (mem_placedMessages_cons.mpr (.inr hp))
    exact (AllNames.struct (hd _ _ hs.name)).append hrest
  | @nested scope depth m rest enums inner items attributes moduleAttributes name module fields
      hnested hs hmodule henums _ _ ihinner ih =>
    have hrest := ih fun p hp => hm p (mem_placedMessages_cons.mpr (.inr hp))
    have hself (p : PlacedMessage) (hp : p ∈ m.placed scope) :=
      hm p (mem_placedMessages_cons.mpr (.inl hp))
    have hname : P module.text := by
      rw [hmodule]
      exact hself ⟨scope, [], m⟩ (mem_placed.mpr (.inl rfl)) hnested
    have hinner := ihinner fun q hq => hself (q.inside _) (mem_placed.mpr (.inr ⟨q, hq, rfl⟩))
    have hboth := (allNames_of_enums hd henums).append hinner
    exact (AllNames.struct (hd _ _ hs.name)).append ((AllNames.module hname hboth).append hrest)

theorem inline (h : MessagesEmitted c final scope depth ms items) :
    ∀ item ∈ items, item.isInline = true := by
  induction h with
  | nil => simp
  | plain _ _ _ ih => exact List.forall_mem_cons.mpr ⟨rfl, ih⟩
  | nested _ _ _ _ _ _ _ ih =>
    exact List.forall_mem_cons.mpr ⟨rfl, List.forall_mem_cons.mpr ⟨rfl, ih⟩⟩

end MessagesEmitted

mutual

theorem messageItems_ensures (m : Message) (scope : String) (depth : Nat) :
    Ensures c (messageItems c scope depth m) fun final items =>
      MessagesEmitted c final scope depth [m] items := by
  obtain ⟨name, fields, messages, enums, docs⟩ := m
  rw [messageItems]
  refine .bindLift fun ident hident => ?_
  refine .bind (structFields_ensures _ depth fields _) fun emitted => ?_
  dsimp only
  by_cases hnone : (messages.isEmpty && enums.isEmpty) = true
  · rw [if_pos hnone]
    have hnested : Message.hasNested ⟨name, fields, messages, enums, docs⟩ = false := by
      rw [Message.hasNested, ← Bool.not_and, hnone, Bool.not_true]
    exact .pure fun final hf => .plain hnested ⟨hident, hf⟩ .nil
  · rw [if_neg hnone]
    have hnested : Message.hasNested ⟨name, fields, messages, enums, docs⟩ = true := by
      rw [Message.hasNested, ← Bool.not_and, Bool.eq_false_iff.mpr hnone, Bool.not_false]
    refine .bindLift fun module hmodule => ?_
    refine .bindLift fun enumItems henums => ?_
    refine .bind (allMessageItems_ensures messages _ _) fun items => ?_
    refine .pure fun final hinner hf => ?_
    exact .nested hnested ⟨hident, hf⟩ (Ident.text_of_ofName hmodule) henums hinner .nil

/-- The items that are made for messages. -/
theorem allMessageItems_ensures (ms : List Message) (scope : String) (depth : Nat) :
    Ensures c (allMessageItems c scope depth ms) fun final items =>
      MessagesEmitted c final scope depth ms items := by
  match ms with
  | [] =>
    rw [allMessageItems]
    exact .pure fun _ => .nil
  | m :: rest =>
    rw [allMessageItems]
    refine .bind (messageItems_ensures m scope depth) fun first => ?_
    refine .bind (allMessageItems_ensures rest scope depth) fun others => ?_
    exact .pure fun final hothers hfirst => hfirst.append hothers

end

/-! ## Messages that are registered under their own names -/

namespace Named

variable {scope : String} {m : Message} {rest : List Message}

theorem of_cons (h : Named c (placedMessages scope (m :: rest))) :
    Named c (m.placed scope) ∧ Named c (placedMessages scope rest) := by
  rw [placedMessages] at h
  exact ⟨⟨fun p hp => h.message p (List.mem_append_left _ hp),
      fun p hp => h.enum p (List.mem_append_left _ hp)⟩,
    ⟨fun p hp => h.message p (List.mem_append_right _ hp),
      fun p hp => h.enum p (List.mem_append_right _ hp)⟩⟩

theorem self (h : Named c (m.placed scope)) {name : Ident}
    (hname : definedName c (qualify scope m.name) = .ok name) :
    name.text = Naming.typeName m.name :=
  h.message _ (mem_placed.mpr (.inl rfl)) name hname

theorem enums (h : Named c (m.placed scope)) : ∀ e ∈ m.enums, ∀ name,
    definedName c (qualify (qualify scope m.name) e.name) = .ok name →
      name.text = Naming.typeName e.name :=
  h.enum _ (mem_placed.mpr (.inl rfl))

theorem nested (h : Named c (m.placed scope)) :
    Named c (placedMessages (qualify scope m.name) m.messages) where
  message := fun q hq =>
    h.message (q.inside (Naming.moduleName m.name)) (mem_placed.mpr (.inr ⟨q, hq, rfl⟩))
  enum := fun q hq =>
    h.enum (q.inside (Naming.moduleName m.name)) (mem_placed.mpr (.inr ⟨q, hq, rfl⟩))

end Named

/-- The items of messages that are registered under their own names mirror them. -/
theorem MessagesEmitted.mirrors {final : ImportSet} {scope : String} {depth : Nat}
    {ms : List Message} {items : List Item} (h : MessagesEmitted c final scope depth ms items)
    (hn : Named c (placedMessages scope ms)) : definedNames items = ms.flatMap Message.names ∧
      Mirrors c final depth (placedMessages scope ms) items := by
  induction h with
  | nil =>
    refine ⟨rfl, ?_⟩
    rw [placedMessages]
    refine .of_flat fun path attributes name inner hi => ?_
    rcases hi with ⟨h, -⟩ | ⟨h, -⟩ <;> cases h
  | @plain scope depth m rest items attributes name fields hm hs _ ih =>
    obtain ⟨hself, hothers⟩ := hn.of_cons
    obtain ⟨hnames, hrest⟩ := ih hothers
    have htext := hself.self hs.name
    rw [placedMessages]
    refine ⟨?_, (Mirrors.single hm htext hs.fields).append hrest⟩
    rw [definedNames_cons, hnames, List.flatMap_cons, Message.names, hm, Item.definedName?, htext]
    rfl
  | @nested scope depth m rest enums inner items attributes moduleAttributes name module fields hm
      hs hmodule henums _ _ ihinner ih =>
    obtain ⟨hself, hothers⟩ := hn.of_cons
    obtain ⟨hnames, hrest⟩ := ih hothers
    obtain ⟨hinnerNames, hinner⟩ := ihinner hself.nested
    have htext := hself.self hs.name
    have hemitted := enumsEmitted hself.enums henums
    rw [placedMessages]
    refine ⟨?_, (Mirrors.nest htext hmodule hs.fields hemitted hinner hinnerNames).append hrest⟩
    rw [definedNames_cons, definedNames_cons, hnames, List.flatMap_cons, Message.names, hm,
      Item.definedName?, Item.definedName?, htext, hmodule]
    rfl

end SchemaBindings.Binding
