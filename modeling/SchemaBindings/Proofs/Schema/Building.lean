import SchemaBindings.Proofs.Naming.Modules
import SchemaBindings.Proofs.Schema.Containment

/-!
Which schemas have a symbol table: those whose files have different modules and in which no scope
has a name twice. The order of the files does not matter.
-/

namespace SchemaBindings

/-- The names can be claimed one after the other. -/
structure Naming.Table.Free (t : Naming.Table) (names : List String) : Prop where
  reserved : t.reserved = []
  nodup : (names.reverse ++ t.assigned).Nodup

namespace Naming.Table.Free

variable {t t' : Naming.Table} {name : String} {names more : List String}

theorem of_nodup {scope : String} (h : names.Nodup) : Free { scope } names :=
  ⟨rfl, by simpa using h⟩

theorem left (h : t.Free (names ++ more)) : t.Free names :=
  ⟨h.reserved, h.nodup.sublist (by simp)⟩

theorem assign (h : t.Free (name :: names)) :
    ∃ t', t.assign name = .ok (name, t') ∧ t.Claims t' [name] ∧ t'.Free names := by
  have hnew : name ∉ t.assigned := fun hm =>
    List.disjoint_of_nodup_append h.nodup (List.mem_reverse.mpr List.mem_cons_self) hm
  have ha : t.assign name = .ok (name, { t with assigned := name :: t.assigned }) := by
    simp [Naming.Table.assign, h.reserved, hnew]
  exact ⟨_, ha, (Claims.of_assign h.reserved ha).2, h.reserved, by simpa using h.nodup⟩

/-- Names can still be claimed when those before them have been. -/
theorem after (h : t.Free (names ++ more)) (hc : t.Claims t' names) : t'.Free more where
  reserved := hc.reserved.trans h.reserved
  nodup := by simpa [hc.eq] using h.nodup

end Naming.Table.Free

namespace SymbolTable

variable {module : ModuleId} {asyncPrefix : String}

theorem exists_registerEnums {scope : String} {parent : List String} {enums : List Enum}
    {state : SymbolTable × Naming.Table} (h : state.2.Free (enums.map (Naming.typeName ·.name))) :
    ∃ state', registerEnums module scope parent enums state = .ok state' := by
  induction enums generalizing state with
  | nil => exact ⟨state, rfl⟩
  | cons e rest ih =>
    obtain ⟨t, names⟩ := state
    obtain ⟨names', ha, -, hrest⟩ := h.assign
    obtain ⟨state', hs⟩ := @ih (t.insert (qualify scope e.name)
      ⟨module, parent ++ [Naming.typeName e.name], .enum⟩, names') hrest
    exact ⟨state', by rw [registerEnums]; exact bind_ok.mpr ⟨_, ha, hs⟩⟩

mutual

theorem exists_registerMessage (m : Message) {scope : String} {parent : List String}
    {state : SymbolTable × Naming.Table} (h : state.2.Free m.names)
    (hinner : ∀ p ∈ m.placed scope, p.innerNames.Nodup) :
    ∃ state', registerMessage module scope parent m state = .ok state' := by
  obtain ⟨name, fields, messages, enums, docs⟩ := m
  obtain ⟨t, names⟩ := state
  obtain ⟨names', ha, -, hrest⟩ := h.assign
  dsimp only at ha hrest
  rw [registerMessage]
  simp only [bind_ok]
  by_cases hnested : (messages.isEmpty && enums.isEmpty) = true
  · exact ⟨_, _, ha, if_pos hnested⟩
  · have hsome : Message.hasNested ⟨name, fields, messages, enums, docs⟩ = true := by
      rw [Message.hasNested, ← Bool.not_and, Bool.eq_false_iff.mpr hnested, Bool.not_false]
    rw [if_pos hsome] at hrest
    obtain ⟨names'', hb, -⟩ := hrest.assign
    have hfree : Naming.Table.Free { scope := qualify scope name } (scopeNames enums messages) :=
      .of_nodup (hinner _ (mem_placed.mpr (.inl rfl)))
    obtain ⟨middle, he⟩ : ∃ middle, registerEnums module (qualify scope name)
        (parent ++ [Naming.moduleName name]) enums (t.insert (qualify scope name)
          ⟨module, parent ++ [Naming.typeName name], .message⟩, { scope := qualify scope name }) =
        .ok middle := exists_registerEnums hfree.left
    have hclaims := (registerEnums_ok rfl he).claims
    obtain ⟨last, hm⟩ : ∃ last, registerMessages module (qualify scope name)
        (parent ++ [Naming.moduleName name]) messages middle = .ok last :=
      exists_registerMessages messages (hfree.after hclaims) fun q hq =>
        hinner (q.inside (Naming.moduleName name)) (mem_placed.mpr (.inr ⟨q, hq, rfl⟩))
    refine ⟨(last.1, names''), _, ha, ?_⟩
    rw [if_neg hnested, bind_ok]
    refine ⟨_, hb, ?_⟩
    dsimp only
    exact bind_ok.mpr ⟨middle, he, bind_ok.mpr ⟨last, hm, rfl⟩⟩

theorem exists_registerMessages (ms : List Message) {scope : String} {parent : List String}
    {state : SymbolTable × Naming.Table} (h : state.2.Free (ms.flatMap Message.names))
    (hinner : ∀ p ∈ placedMessages scope ms, p.innerNames.Nodup) :
    ∃ state', registerMessages module scope parent ms state = .ok state' := by
  match ms with
  | [] => exact ⟨state, rfl⟩
  | m :: rest =>
    obtain ⟨middle, hm⟩ : ∃ middle, registerMessage module scope parent m state = .ok middle :=
      exists_registerMessage m h.left fun p hp =>
        hinner p (mem_placedMessages_cons.mpr (.inl hp))
    have hclaims := (registerMessage_ok h.reserved hm).1.claims
    obtain ⟨last, hs⟩ : ∃ last, registerMessages module scope parent rest middle = .ok last :=
      exists_registerMessages rest (h.after hclaims) fun p hp =>
        hinner p (mem_placedMessages_cons.mpr (.inr hp))
    exact ⟨last, by rw [registerMessages]; exact bind_ok.mpr ⟨middle, hm, hs⟩⟩

end

theorem exists_claimClients {services : List Service} {names : Naming.Table}
    (h : names.Free (clientNames asyncPrefix services)) :
    ∃ names', claimClients asyncPrefix services names = .ok names' := by
  induction services generalizing names with
  | nil => exact ⟨names, rfl⟩
  | cons s rest ih =>
    obtain ⟨first, ha, -, hfirst⟩ := h.assign
    obtain ⟨second, hb, -, hsecond⟩ := hfirst.assign
    obtain ⟨names', hs⟩ := ih hsecond
    exact ⟨names', by
      rw [claimClients]
      exact bind_ok.mpr ⟨_, ha, bind_ok.mpr ⟨_, hb, hs⟩⟩⟩

/-- A file is registered if no scope of it has a name twice. -/
theorem exists_registerFile (t : SymbolTable) {f : SchemaFile} (h : Claimed asyncPrefix f) :
    ∃ t', registerFile asyncPrefix t f = .ok t' := by
  have hfree : Naming.Table.Free { scope := f.module.text }
      ((f.enums.map (Naming.typeName ·.name) ++ f.messages.flatMap Message.names) ++
        clientNames asyncPrefix f.services) := .of_nodup h.names
  obtain ⟨first, he⟩ : ∃ first, registerEnums f.module f.package [] f.enums
      (t, { scope := f.module.text }) = .ok first := exists_registerEnums hfree.left.left
  have henums := (registerEnums_ok rfl he).claims
  obtain ⟨second, hm⟩ : ∃ second, registerMessages f.module f.package [] f.messages first =
      .ok second := exists_registerMessages f.messages (hfree.left.after henums) h.innerNames
  have hmessages := (registerMessages_ok (henums.reserved.trans rfl) hm).1.claims
  obtain ⟨names, hs⟩ := exists_claimClients (hfree.after (henums.trans hmessages))
  exact ⟨_, bind_ok.mpr ⟨_, he, bind_ok.mpr ⟨_, hm, bind_ok.mpr ⟨_, hs, rfl⟩⟩⟩⟩

theorem exists_registerFiles {files : List SchemaFile} {t : SymbolTable} {modules : Naming.Table}
    (h : modules.Free (files.map (·.module.text))) (hc : ∀ f ∈ files, Claimed asyncPrefix f) :
    ∃ t', registerFiles asyncPrefix files (t, modules) = .ok t' := by
  induction files generalizing t modules with
  | nil => exact ⟨t, rfl⟩
  | cons f rest ih =>
    obtain ⟨hf, hrest⟩ := List.forall_mem_cons.mp hc
    obtain ⟨modules', ha, -, hmodules⟩ := h.assign
    obtain ⟨middle, hm⟩ := exists_registerFile t hf
    obtain ⟨t', ht⟩ := @ih middle modules' hmodules hrest
    exact ⟨t', by
      rw [registerFiles]
      exact bind_ok.mpr ⟨_, ha, bind_ok.mpr ⟨_, hm, ht⟩⟩⟩

/-- A schema has a table exactly if its files have different modules and no scope has a name
twice. -/
theorem exists_build_iff {files : List SchemaFile} : (∃ t, build files asyncPrefix = .ok t) ↔
    (files.map (·.module)).Nodup ∧ ∀ f ∈ files, Claimed asyncPrefix f := by
  constructor
  · rintro ⟨t, h⟩
    have hd := (build_ok h).1
    exact ⟨hd.modules, hd.claimed⟩
  · rintro ⟨hmodules, hclaimed⟩
    have htexts : (files.map (·.module.text)).Nodup :=
      hmodules.of_map.map_on fun f hf f' hf' he =>
        List.inj_on_of_nodup_map hmodules hf hf' (SchemaFile.module_eq_of_text he)
    obtain ⟨t, ht⟩ : ∃ t, registerFiles asyncPrefix files ({}, { scope := "package" }) = .ok t :=
      exists_registerFiles (.of_nodup htexts) hclaimed
    exact ⟨_, bind_ok.mpr ⟨t, ht, rfl⟩⟩

end SymbolTable

end SchemaBindings
