import SchemaBindings.Proofs.Lookup
import SchemaBindings.Proofs.Outcome
import SchemaBindings.Proofs.Schema.Definitions

/-!
What building the symbol table of a schema comes to: every definition is found under its full name,
the names at the top of each module are those of its file, and no scope has a name twice.
-/

namespace SchemaBindings

theorem DistinctNames.unambiguous {files : List SchemaFile} (h : DistinctNames files) :
    Unambiguous files :=
  fun _ hd _ hd' he => congrArg (·.2.name) (List.inj_on_of_nodup_map h hd hd' he)

/-- The last part of a full name, which has no dot, is the name. -/
theorem qualify_inj {scope scope' name name' : String} (hn : '.' ∉ name.toList)
    (hn' : '.' ∉ name'.toList) (h : qualify scope name = qualify scope' name') : name = name' := by
  have hsplit {front front' back back' : List Char} (hb : '.' ∉ back) (hb' : '.' ∉ back')
      (h : front ++ '.' :: back = front' ++ '.' :: back') : back = back' := by
    rcases List.append_eq_append_iff.mp h with ⟨more, rfl, hm⟩ | ⟨more, rfl, hm⟩ <;>
    · cases more with
      | nil => simpa [eq_comm] using hm
      | cons c more =>
        obtain ⟨rfl, hrest⟩ := List.cons.inj hm
        simp_all
  have hlist := congrArg String.toList h
  rw [← String.toList_inj]
  unfold qualify at hlist
  split at hlist <;> split at hlist
  · exact hlist
  · exact absurd (hlist ▸ hn) (by simp)
  · exact absurd (hlist ▸ hn') (by simp)
  · have hparts : scope.toList ++ '.' :: name.toList = scope'.toList ++ '.' :: name'.toList := by
      simpa [String.toList_append] using hlist
    exact hsplit hn hn' hparts

/-- Names without dots are never ambiguous. -/
theorem unambiguous_of_dotless {files : List SchemaFile}
    (h : ∀ f ∈ files, (∀ e ∈ f.enums, '.' ∉ e.name.toList) ∧ ∀ p ∈ f.placedMessages,
      '.' ∉ p.message.name.toList ∧ ∀ e ∈ p.message.enums, '.' ∉ e.name.toList) :
    Unambiguous files := by
  have hspell {d : Definition} (hd : d ∈ definitions files) : ∃ scope name,
      '.' ∉ name.toList ∧ d.1 = qualify scope name ∧ d.2.name = Naming.typeName name := by
    obtain ⟨f, hf, hdefines⟩ := mem_definitions.mp hd
    obtain ⟨henums, hmessages⟩ := h f hf
    cases hdefines with
    | enum e he => exact ⟨_, e.name, henums e he, rfl, rfl⟩
    | message p hp =>
      exact ⟨_, p.message.name, (hmessages p hp).1, rfl, by
        simp [Symbol.name, PlacedMessage.path]⟩
    | nestedEnum p hp e he => exact ⟨_, e.name, (hmessages p hp).2 e he, rfl, by simp [Symbol.name]⟩
  intro d hd d' hd' he
  obtain ⟨scope, name, hdot, hfull, hname⟩ := hspell hd
  obtain ⟨scope', name', hdot', hfull', hname'⟩ := hspell hd'
  rw [hname, hname', qualify_inj hdot hdot' (hfull.symm.trans (he.trans hfull'))]

/-- Names claimed one after the other in a scope. -/
structure Naming.Table.Claims (t t' : Naming.Table) (names : List String) : Prop where
  eq : t' = { t with assigned := names.reverse ++ t.assigned }
  nodup : t.assigned.Nodup → t'.assigned.Nodup

namespace Naming.Table.Claims

variable {t t' t'' : Naming.Table} {names more : List String}

theorem refl (t : Naming.Table) : t.Claims t [] :=
  ⟨rfl, id⟩

theorem trans (h : t.Claims t' names) (h' : t'.Claims t'' more) : t.Claims t'' (names ++ more) where
  eq := by
    rw [h'.eq, h.eq]
    simp
  nodup := fun hn => h'.nodup (h.nodup hn)

theorem reserved (h : t.Claims t' names) : t'.reserved = t.reserved := by
  rw [h.eq]

/-- Names claimed in a scope that was empty differ from each other. -/
theorem distinct (h : t.Claims t' names) (ht : t.assigned = []) :
    t'.assigned = names.reverse ∧ names.Nodup := by
  have hn := h.nodup (ht ▸ List.nodup_nil)
  rw [h.eq, ht] at hn
  rw [h.eq, ht]
  simpa using hn

/-- Without reserved names a name is claimed as it is. -/
theorem of_assign {name given : String} (ht : t.reserved = [])
    (h : t.assign name = .ok (given, t')) : name = given ∧ t.Claims t' [name] := by
  simp only [assign, ht, List.contains_nil, Bool.false_eq_true, if_false] at h
  split at h
  · cases h
  · next hc =>
    cases h
    refine ⟨rfl, by simp [ht], fun hn => List.nodup_cons.mpr ⟨by simpa using hc, hn⟩⟩

end Naming.Table.Claims

/-- Only a name that is free is claimed. -/
theorem Naming.Table.notMem_of_assign {t t' : Naming.Table} {name given : String}
    (ht : t.reserved = []) (h : t.assign name = .ok (given, t')) : name ∉ t.assigned := by
  intro hmem
  simp [assign, ht, hmem] at h

namespace SymbolTable

/-- A table with further definitions. -/
def register (t : SymbolTable) (defs : List Definition) : SymbolTable :=
  { t with symbols := insertEach t.symbols defs }

theorem register_register (t : SymbolTable) (front behind : List Definition) :
    (t.register front).register behind = t.register (front ++ behind) := by
  rw [register, register, register, insertEach_append]

theorem insert_eq_register (t : SymbolTable) (name : String) (s : Symbol) :
    t.insert name s = t.register [(name, s)] :=
  rfl

/-- Definitions are registered and names are claimed. -/
structure Registers (state state' : SymbolTable × Naming.Table) (defs : List Definition)
    (names : List String) : Prop where
  table : state'.1 = state.1.register defs
  claims : state.2.Claims state'.2 names

theorem Registers.trans {state state' state'' : SymbolTable × Naming.Table}
    {defs more : List Definition} {names others : List String}
    (h : Registers state state' defs names) (h' : Registers state' state'' more others) :
    Registers state state'' (defs ++ more) (names ++ others) where
  table := by rw [h'.table, h.table, register_register]
  claims := h.claims.trans h'.claims

variable {module : ModuleId} {scope : String} {parent : List String}
  {state state' : SymbolTable × Naming.Table}

theorem registerEnums_ok {enums : List Enum} (hr : state.2.reserved = [])
    (h : registerEnums module scope parent enums state = .ok state') :
    Registers state state' (enumDefinitions module scope parent enums)
      (enums.map (Naming.typeName ·.name)) := by
  induction enums generalizing state with
  | nil =>
    cases h
    exact ⟨rfl, .refl _⟩
  | cons e rest ih =>
    obtain ⟨t, names⟩ := state
    rw [registerEnums] at h
    obtain ⟨⟨given, claimed⟩, ha, h⟩ := bind_ok.mp h
    obtain ⟨rfl, hc⟩ := Naming.Table.Claims.of_assign hr ha
    exact Registers.trans ⟨insert_eq_register .., hc⟩ (ih (hc.reserved.trans hr) h)

/-- The definitions of messages that are placed, given where their scope is. -/
def placedDefinitions (module : ModuleId) (parent : List String) (ps : List PlacedMessage) :
    List Definition :=
  ps.flatMap (·.definitions module parent)

theorem placedDefinitions_cons (scope : String) (m : Message) (rest : List Message) :
    placedDefinitions module parent (placedMessages scope (m :: rest)) =
      placedDefinitions module parent (m.placed scope) ++
        placedDefinitions module parent (placedMessages scope rest) := by
  rw [placedMessages]
  exact List.flatMap_append

private theorem placedDefinitions_inside (name : String) (ps : List PlacedMessage) :
    placedDefinitions module parent (ps.map (·.inside name)) =
      placedDefinitions module (parent ++ [name]) ps := by
  rw [placedDefinitions, placedDefinitions, List.flatMap_map]
  congr
  funext p
  simp [PlacedMessage.definitions, PlacedMessage.inside, PlacedMessage.fullName,
    PlacedMessage.path, PlacedMessage.inner]

/-- A message defines itself, and then what is nested in it one module further inside. -/
theorem placedDefinitions_placed (scope : String) (m : Message) :
    placedDefinitions module parent (m.placed scope) =
      (qualify scope m.name, ⟨module, parent ++ [Naming.typeName m.name], .message⟩) ::
        (enumDefinitions module (qualify scope m.name) (parent ++ [Naming.moduleName m.name])
            m.enums ++
          placedDefinitions module (parent ++ [Naming.moduleName m.name])
            (placedMessages (qualify scope m.name) m.messages)) := by
  obtain ⟨name, fields, messages, enums, docs⟩ := m
  rw [← placedDefinitions_inside]
  simp [Message.placed, placedDefinitions, PlacedMessage.definitions, PlacedMessage.fullName,
    PlacedMessage.path, PlacedMessage.inner]

mutual

theorem registerMessage_ok {m : Message} {scope : String} {parent : List String}
    {state state' : SymbolTable × Naming.Table} (hr : state.2.reserved = [])
    (h : registerMessage module scope parent m state = .ok state') :
    Registers state state' (placedDefinitions module parent (m.placed scope)) m.names ∧
      ∀ p ∈ m.placed scope, p.innerNames.Nodup := by
  obtain ⟨name, fields, messages, enums, docs⟩ := m
  obtain ⟨t, names⟩ := state
  rw [registerMessage] at h
  obtain ⟨⟨given, claimed⟩, ha, hrest⟩ := bind_ok.mp h
  obtain ⟨rfl, hc⟩ := Naming.Table.Claims.of_assign hr ha
  dsimp only at hrest
  by_cases hnested : (messages.isEmpty && enums.isEmpty) = true
  · rw [if_pos hnested] at hrest
    cases hrest
    obtain ⟨rfl, rfl⟩ : messages = [] ∧ enums = [] := by simpa using hnested
    refine ⟨⟨rfl, hc⟩, ?_⟩
    simp [Message.placed, SchemaBindings.placedMessages, PlacedMessage.innerNames, scopeNames]
  · rw [if_neg hnested] at hrest
    obtain ⟨⟨given, claimed'⟩, ha', hinner⟩ := bind_ok.mp hrest
    obtain ⟨rfl, hc'⟩ := Naming.Table.Claims.of_assign (hc.reserved.trans hr) ha'
    obtain ⟨middle, he, hmessages⟩ := bind_ok.mp hinner
    obtain ⟨⟨last, nested⟩, hm, hlast⟩ := bind_ok.mp hmessages
    cases hlast
    have henums := registerEnums_ok rfl he
    obtain ⟨hregs, hscopes⟩ := registerMessages_ok (henums.claims.reserved.trans rfl) hm
    have hboth := henums.trans hregs
    refine ⟨⟨?_, ?_⟩, ?_⟩
    · have ht := hboth.table
      dsimp only at ht
      rw [ht, insert_eq_register, register_register, placedDefinitions_placed]
      rfl
    · have hsome : (!messages.isEmpty || !enums.isEmpty) = true := by
        rw [← Bool.not_and, Bool.eq_false_iff.mpr hnested, Bool.not_false]
      have hnames : Message.names ⟨name, fields, messages, enums, docs⟩ =
          [Naming.typeName name] ++ [Naming.moduleName name] := by
        simp only [Message.names, Message.hasNested, hsome, if_true, List.singleton_append]
      exact hnames ▸ hc.trans hc'
    · intro p hp
      rcases mem_placed.mp hp with rfl | ⟨q, hq, rfl⟩
      · exact (hboth.claims.distinct rfl).2
      · exact hscopes q hq

/-- What messages register, and that no scope below theirs has a name twice. -/
theorem registerMessages_ok {ms : List Message} {scope : String} {parent : List String}
    {state state' : SymbolTable × Naming.Table} (hr : state.2.reserved = [])
    (h : registerMessages module scope parent ms state = .ok state') :
    Registers state state' (placedDefinitions module parent (placedMessages scope ms))
      (ms.flatMap Message.names) ∧
    ∀ p ∈ placedMessages scope ms, p.innerNames.Nodup := by
  match ms with
  | [] =>
    cases h
    exact ⟨⟨rfl, .refl _⟩, by simp [placedMessages]⟩
  | m :: rest =>
    rw [registerMessages] at h
    obtain ⟨middle, hm, h⟩ := bind_ok.mp h
    obtain ⟨hreg, hd⟩ := registerMessage_ok hr hm
    obtain ⟨hreg', hd'⟩ := registerMessages_ok (hreg.claims.reserved.trans hr) h
    refine ⟨?_, ?_⟩
    · rw [placedDefinitions_cons]
      exact hreg.trans hreg'
    · intro p hp
      exact (mem_placedMessages_cons.mp hp).elim (hd p) (hd' p)

end

/-! ## Files -/

theorem claimClients_ok {asyncPrefix : String} {services : List Service}
    {names names' : Naming.Table} (hr : names.reserved = [])
    (h : claimClients asyncPrefix services names = .ok names') :
    names.Claims names' (clientNames asyncPrefix services) := by
  induction services generalizing names with
  | nil =>
    cases h
    exact .refl _
  | cons s rest ih =>
    rw [claimClients] at h
    obtain ⟨⟨_, first⟩, ha, hsecond⟩ := bind_ok.mp h
    obtain ⟨rfl, hc⟩ := Naming.Table.Claims.of_assign hr ha
    have hr' := hc.reserved.trans hr
    obtain ⟨⟨_, second⟩, hb, hrest⟩ := bind_ok.mp hsecond
    obtain ⟨rfl, hc'⟩ := Naming.Table.Claims.of_assign hr' hb
    exact (hc.trans hc').trans (ih (hc'.reserved.trans hr') hrest)

/-- What holds of a file whose names have been claimed. -/
structure Claimed (asyncPrefix : String) (f : SchemaFile) : Prop where
  names : (f.names asyncPrefix).Nodup
  innerNames : ∀ p ∈ f.placedMessages, p.innerNames.Nodup

variable {asyncPrefix : String} {t t' : SymbolTable}

theorem registerFile_ok {f : SchemaFile} (h : registerFile asyncPrefix t f = .ok t') :
    Claimed asyncPrefix f ∧ ∃ names : Naming.Table,
      (∀ name, name ∈ names.assigned ↔ name ∈ f.names asyncPrefix) ∧
        t' = { t.register f.definitions with
          locals := insertSorted ModuleId.before f.module names t.locals } := by
  rw [registerFile] at h
  obtain ⟨first, he, hmessages⟩ := bind_ok.mp h
  obtain ⟨⟨second, names⟩, hm, hclients⟩ := bind_ok.mp hmessages
  obtain ⟨names', hs, hlast⟩ := bind_ok.mp hclients
  have henums := registerEnums_ok rfl he
  obtain ⟨hregs, hinner⟩ := registerMessages_ok (henums.claims.reserved.trans rfl) hm
  have hboth := henums.trans hregs
  have hall := hboth.claims.trans (claimClients_ok (hboth.claims.reserved.trans rfl) hs)
  obtain ⟨hassigned, hnodup⟩ := hall.distinct rfl
  refine ⟨⟨hnodup, hinner⟩, names', fun name => ?_, ?_⟩
  · rw [hassigned, List.mem_reverse]
    rfl
  · cases hlast
    have ht := hboth.table
    dsimp only at ht
    rw [ht]
    rfl

theorem isLocal_insertSorted {f : SchemaFile} {names : Naming.Table} {m : ModuleId}
    {name : String} (hn : ∀ name, name ∈ names.assigned ↔ name ∈ f.names asyncPrefix)
    (ht : t'.locals = insertSorted ModuleId.before f.module names t.locals) :
    t'.isLocal m name = true ↔
      if m = f.module then name ∈ f.names asyncPrefix else t.isLocal m name = true := by
  rw [isLocal, ht, lookup_insertSorted]
  by_cases h : m = f.module
  · simp [h, hn]
  · simp [h, isLocal]

/-- A table that holds the definitions and the names of files. -/
structure Describes (asyncPrefix : String) (t : SymbolTable) (files : List SchemaFile) : Prop where
  symbols : t.symbols = insertEach [] (definitions files)
  isLocal : ∀ m name, t.isLocal m name = true ↔
    ∃ f ∈ files, f.module = m ∧ name ∈ f.names asyncPrefix
  modules : (files.map (·.module)).Nodup
  claimed : ∀ f ∈ files, Claimed asyncPrefix f

/-- A table that describes files describes one more behind them once it holds its definitions and
its names. -/
theorem Describes.add {done : List SchemaFile} {f : SchemaFile} {names : Naming.Table}
    (hd : Describes asyncPrefix t done) (hfresh : f.module ∉ done.map (·.module))
    (hclaimed : Claimed asyncPrefix f)
    (hnames : ∀ name, name ∈ names.assigned ↔ name ∈ f.names asyncPrefix) :
    Describes asyncPrefix { t.register f.definitions with
      locals := insertSorted ModuleId.before f.module names t.locals } (done ++ [f]) where
  symbols := by simp [register, hd.symbols, definitions, insertEach_append]
  isLocal m name := by
    rw [isLocal_insertSorted hnames rfl, hd.isLocal]
    have hne (g : SchemaFile) (hg : g ∈ done) : g.module ≠ f.module :=
      fun he => hfresh (he ▸ List.mem_map_of_mem hg)
    grind
  modules := by
    rw [List.map_append, List.nodup_append]
    refine ⟨hd.modules, by simp, ?_⟩
    rintro m hin _ hlast rfl
    simp only [List.map_cons, List.map_nil, List.mem_singleton] at hlast
    exact hfresh (hlast ▸ hin)
  claimed g hg := by
    rcases List.mem_append.mp hg with hg | hg
    · exact hd.claimed g hg
    · rw [List.mem_singleton.mp hg]
      exact hclaimed

/-- Files are registered behind those that a table describes already. -/
theorem registerFiles_ok {done files : List SchemaFile} {modules : Naming.Table}
    (hr : modules.reserved = [])
    (hm : modules.assigned = (done.map (·.module.text)).reverse)
    (hd : Describes asyncPrefix t done)
    (h : registerFiles asyncPrefix files (t, modules) = .ok t') :
    Describes asyncPrefix t' (done ++ files) ∧ t'.contents = t.contents := by
  induction files generalizing done t modules with
  | nil =>
    cases h
    exact ⟨by simpa using hd, rfl⟩
  | cons f rest ih =>
    rw [registerFiles] at h
    obtain ⟨⟨_, modules'⟩, ha, hfile⟩ := bind_ok.mp h
    obtain ⟨middle, hf, hrest⟩ := bind_ok.mp hfile
    obtain ⟨hclaimed, names, hnames, rfl⟩ := registerFile_ok hf
    have hfresh : f.module ∉ done.map (·.module) := by
      intro hin
      obtain ⟨g, hg, he⟩ := List.mem_map.mp hin
      refine Naming.Table.notMem_of_assign hr ha ?_
      rw [hm, List.mem_reverse]
      exact List.mem_map.mpr ⟨g, hg, congrArg ModuleId.text he⟩
    obtain ⟨rfl, hc⟩ := Naming.Table.Claims.of_assign hr ha
    have hm' : modules'.assigned = ((done ++ [f]).map (·.module.text)).reverse := by
      rw [hc.eq, hm]
      simp [SchemaFile.module]
    have hd' := hd.add hfresh hclaimed hnames
    simpa [register] using ih (hc.reserved.trans hr) hm' hd' hrest

namespace Describes

variable {files : List SchemaFile}

theorem get?_eq_some (hd : Describes asyncPrefix t files) (hn : DistinctNames files)
    {fullName : String} {s : Symbol} :
    t.get? fullName = some s ↔ (fullName, s) ∈ definitions files := by
  rw [get?, hd.symbols]
  exact lookup_insertEach_nil hn

/-- Only definitions are found. -/
theorem mem_definitions (hd : Describes asyncPrefix t files) {fullName : String} {s : Symbol}
    (h : t.get? fullName = some s) : (fullName, s) ∈ definitions files := by
  rw [get?, hd.symbols] at h
  exact (mem_of_mem_insertEach (mem_of_lookup h)).resolve_left List.not_mem_nil

/-- What is found under the full name of a definition has its name. -/
theorem exists_get? (hd : Describes asyncPrefix t files) (hn : Unambiguous files) {d : Definition}
    (h : d ∈ definitions files) : ∃ s, t.get? d.1 = some s ∧ s.name = d.2.name := by
  obtain ⟨s, hs, hlookup⟩ := @exists_lookup_insertEach _ [] _ _ (List.mem_map_of_mem h)
  refine ⟨s, ?_, hn _ hs _ h rfl⟩
  rw [get?, hd.symbols, hlookup]

/-- No two files have the same module. -/
theorem eq_of_module (hd : Describes asyncPrefix t files) {f g : SchemaFile} (hf : f ∈ files)
    (hg : g ∈ files) (h : f.module = g.module) : f = g :=
  List.inj_on_of_nodup_map hd.modules hf hg h

end Describes

end SymbolTable

end SchemaBindings
