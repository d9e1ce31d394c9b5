import Mathlib.Data.List.Duplicate
import SchemaBindings.Proofs.Faultless
import SchemaBindings.Proofs.Schema.Building

/-!
What is wrong with a schema that has no symbol table: two of its files have the same module, or a
scope has a name twice. The failure shows such a scope and such a name.
-/

namespace SchemaBindings

/-- A name of a scope is taken. -/
def Failure.IsCollision : Failure → Prop
  | .nameCollision .. => True
  | _ => False

theorem Failure.IsCollision.not_isDefect {e : Failure} (h : e.IsCollision) : ¬ e.IsDefect := by
  cases e <;> first | exact h.elim | exact not_false

/-- The text of a scope of a schema and a name that is claimed there twice. -/
inductive Collides (asyncPrefix : String) (files : List SchemaFile) : String → String → Prop
  /-- Two files have the same module. -/
  | modules {m : ModuleId} (h : List.Duplicate m (files.map (·.module))) :
    Collides asyncPrefix files "package" m.text
  /-- The top of the module of a file. -/
  | top {f : SchemaFile} (hf : f ∈ files) {name : String}
    (h : List.Duplicate name (f.names asyncPrefix)) :
    Collides asyncPrefix files f.module.text name
  /-- The module of what is nested in a message. -/
  | nested {f : SchemaFile} (hf : f ∈ files) {p : PlacedMessage} (hp : p ∈ f.placedMessages)
    {name : String} (h : List.Duplicate name p.innerNames) :
    Collides asyncPrefix files p.fullName name

/-! ## Claiming names -/

namespace Naming.Table

/-- The failure shows a name that is there twice once the names are claimed in a scope, too. -/
def Clash (t : Table) (names : List String) (e : Failure) : Prop :=
  ∃ name, e = .nameCollision t.scope name ∧ List.Duplicate name (t.assigned.reverse ++ names)

variable {t t' : Table} {names more : List String} {e : Failure}

theorem Clash.append (h : t.Clash names e) (more : List String) : t.Clash (names ++ more) e := by
  obtain ⟨name, rfl, hd⟩ := h
  refine ⟨name, rfl, hd.mono_sublist ?_⟩
  exact (List.sublist_append_left names more).append_left _

/-- Names that were claimed before count as well. -/
theorem Claims.clash (hc : t.Claims t' names) (h : t'.Clash more e) :
    t.Clash (names ++ more) e := by
  obtain ⟨name, rfl, hd⟩ := h
  rw [hc.eq] at hd ⊢
  exact ⟨name, rfl, by simpa using hd⟩

theorem assign_yields (hr : t.reserved = []) (name : String) :
    Yields (t.Clash [name]) (t.assign name) fun r => t.Claims r.2 [name] := by
  refine ⟨fun e he => ?_, fun r hr' => (Claims.of_assign hr hr').2⟩
  simp only [assign, hr, List.contains_nil, Bool.false_eq_true, if_false] at he
  split at he
  · next htaken =>
    cases he
    have hmem : name ∈ t.assigned.reverse :=
      List.mem_reverse.mpr (contains_eq_true.mp htaken)
    refine ⟨name, rfl, ?_⟩
    exact List.duplicate_iff_sublist.mpr ((List.singleton_sublist.mpr hmem).append (.refl [name]))
  · cases he

end Naming.Table

namespace SymbolTable

open Naming.Table (assign_yields)

variable {module : ModuleId} {asyncPrefix : String}

theorem registerEnums_yields (scope : String) (parent : List String) {enums : List Enum}
    {state : SymbolTable × Naming.Table} (hr : state.2.reserved = []) :
    Yields (state.2.Clash (enums.map (Naming.typeName ·.name)))
      (registerEnums module scope parent enums state) fun _ => True := by
  induction enums generalizing state with
  | nil => exact .ok trivial
  | cons e rest ih =>
    unfold registerEnums
    refine .bind ((assign_yields hr _).mono fun _ he => he.append _) fun r _ hc => ?_
    exact (ih (hc.reserved.trans hr)).mono fun _ he => hc.clash he

/-- The failure shows a name that one of the placed messages has twice inside. -/
def ClashWithin (ps : List PlacedMessage) (e : Failure) : Prop :=
  ∃ p ∈ ps, ({ scope := p.fullName } : Naming.Table).Clash p.innerNames e

theorem ClashWithin.mono {ps qs : List PlacedMessage} {e : Failure} (h : ClashWithin ps e)
    (hs : ps ⊆ qs) : ClashWithin qs e :=
  let ⟨p, hp, he⟩ := h
  ⟨p, hs hp, he⟩

/-- What is nested in a message has the same names one module further inside. -/
theorem ClashWithin.placed {m : Message} {scope : String} {e : Failure}
    (h : ClashWithin (placedMessages (qualify scope m.name) m.messages) e) :
    ClashWithin (m.placed scope) e :=
  let ⟨q, hq, he⟩ := h
  ⟨q.inside (Naming.moduleName m.name), mem_placed.mpr (.inr ⟨q, hq, rfl⟩), he⟩

mutual

theorem registerMessage_yields (m : Message) (scope : String) (parent : List String)
    {state : SymbolTable × Naming.Table} (hr : state.2.reserved = []) :
    Yields (fun e => state.2.Clash m.names e ∨ ClashWithin (m.placed scope) e)
      (registerMessage module scope parent m state) fun _ => True := by
  obtain ⟨name, fields, messages, enums, docs⟩ := m
  rw [registerMessage]
  refine .bind ((assign_yields hr _).mono fun _ he => .inl (he.append _)) fun r _ hc => ?_
  dsimp only
  split
  · exact .ok trivial
  next hnested =>
  have hsome : Message.hasNested ⟨name, fields, messages, enums, docs⟩ = true := by
    rw [Message.hasNested, ← Bool.not_and, Bool.eq_false_iff.mpr hnested, Bool.not_false]
  rw [Message.names, if_pos hsome]
  refine .bind ((assign_yields (hc.reserved.trans hr) _).mono fun _ he => .inl (hc.clash he))
    fun r' _ _ => ?_
  have hself (e : Failure)
      (he : ({ scope := qualify scope name } : Naming.Table).Clash (scopeNames enums messages) e) :
      ClashWithin (Message.placed scope ⟨name, fields, messages, enums, docs⟩) e :=
    ⟨_, mem_placed.mpr (.inl rfl), he⟩
  refine .bind ((registerEnums_yields _ _ rfl).mono fun e he => .inr (hself e (he.append _)))
    fun middle hm _ => ?_
  have henums := (registerEnums_ok rfl hm).claims
  refine .bind ((registerMessages_yields messages _ _ (henums.reserved.trans rfl)).mono
    fun e he => .inr ?_) fun _ _ _ => .ok trivial
  exact he.elim (fun he => hself e (henums.clash he))
    (ClashWithin.placed (m := ⟨name, fields, messages, enums, docs⟩))

theorem registerMessages_yields (ms : List Message) (scope : String) (parent : List String)
    {state : SymbolTable × Naming.Table} (hr : state.2.reserved = []) :
    Yields (fun e => state.2.Clash (ms.flatMap Message.names) e ∨
        ClashWithin (placedMessages scope ms) e)
      (registerMessages module scope parent ms state) fun _ => True := by
  match ms with
  | [] =>
    rw [registerMessages]
    exact .ok trivial
  | m :: rest =>
    rw [registerMessages, placedMessages]
    refine .bind ((registerMessage_yields m scope parent hr).mono fun e he => ?_)
      fun middle hm _ => ?_
    · exact he.imp (·.append _) (·.mono (List.subset_append_left ..))
    · have hc := (registerMessage_ok hr hm).1.claims
      refine (registerMessages_yields rest scope parent (hc.reserved.trans hr)).mono fun e he => ?_
      exact he.imp hc.clash (·.mono (List.subset_append_right ..))

end

theorem claimClients_yields {services : List Service} {names : Naming.Table}
    (hr : names.reserved = []) :
    Yields (names.Clash (clientNames asyncPrefix services))
      (claimClients asyncPrefix services names) fun _ => True := by
  induction services generalizing names with
  | nil => exact .ok trivial
  | cons s rest ih =>
    unfold claimClients
    refine .bind ((assign_yields hr _).mono fun _ he => he.append _) fun r _ hc => ?_
    have hr' := hc.reserved.trans hr
    refine .bind ((assign_yields hr' _).mono fun _ he => ?_) fun r' _ hc' => ?_
    · exact (hc.clash he).append (clientNames asyncPrefix rest)
    · exact (ih (hc'.reserved.trans hr')).mono fun _ he => hc.clash (hc'.clash he)

/-! ## Files -/

/-- The failure shows a name that a scope of the file has twice. -/
def ClashInFile (asyncPrefix : String) (f : SchemaFile) (e : Failure) : Prop :=
  ({ scope := f.module.text } : Naming.Table).Clash (f.names asyncPrefix) e ∨
    ClashWithin f.placedMessages e

theorem registerFile_yields (t : SymbolTable) (f : SchemaFile) :
    Yields (ClashInFile asyncPrefix f) (registerFile asyncPrefix t f) fun _ => True := by
  unfold registerFile
  refine .bind ((registerEnums_yields _ _ rfl).mono fun e he => .inl ?_) fun first hf _ => ?_
  · exact (he.append _).append _
  have henums := (registerEnums_ok rfl hf).claims
  have hr : first.2.reserved = [] := henums.reserved
  refine .bind ((registerMessages_yields f.messages _ _ hr).mono fun e he => ?_)
    fun second hs _ => ?_
  · exact he.imp_left fun he => (henums.clash he).append _
  have hclaims := henums.trans (registerMessages_ok hr hs).1.claims
  refine .bind ((claimClients_yields hclaims.reserved).mono fun e he => .inl ?_)
    fun _ _ _ => .ok trivial
  exact hclaims.clash he

theorem registerFiles_yields {files : List SchemaFile} {state : SymbolTable × Naming.Table}
    (hr : state.2.reserved = []) :
    Yields (fun e => state.2.Clash (files.map (·.module.text)) e ∨
        ∃ f ∈ files, ClashInFile asyncPrefix f e)
      (registerFiles asyncPrefix files state) fun _ => True := by
  induction files generalizing state with
  | nil => exact .ok trivial
  | cons f rest ih =>
    unfold registerFiles
    refine .bind ((assign_yields hr _).mono fun _ he => .inl (he.append _)) fun r _ hc => ?_
    refine .bind ((registerFile_yields _ f).mono fun _ he => .inr ?_) fun t _ _ => ?_
    · exact ⟨f, List.mem_cons_self, he⟩
    · refine (ih (hc.reserved.trans hr)).mono fun _ he => he.imp hc.clash fun he => ?_
      obtain ⟨f', hf', he⟩ := he
      exact ⟨f', List.mem_cons_of_mem f hf', he⟩

variable {files : List SchemaFile}

/-- Files whose modules have the same text have the same module. -/
theorem exists_module_of_duplicate {name : String}
    (h : List.Duplicate name (files.map (·.module.text))) :
    ∃ m : ModuleId, m.text = name ∧ List.Duplicate m (files.map (·.module)) := by
  obtain ⟨pair, hpair, hnames⟩ := List.sublist_map_iff.mp (List.duplicate_iff_sublist.mp h)
  obtain ⟨f, g, rfl⟩ : ∃ f g, pair = [f, g] := by
    rw [← List.length_eq_two, ← List.length_map, ← hnames]
    rfl
  obtain ⟨hf, hg⟩ : name = f.module.text ∧ name = g.module.text := by simpa using hnames
  have he : f.module = g.module := SchemaFile.module_eq_of_text (hf.symm.trans hg)
  refine ⟨f.module, hf.symm, List.duplicate_iff_sublist.mpr ?_⟩
  simpa [he] using hpair.map SchemaFile.module

/-- A schema without a table has a name that is claimed twice, which the failure shows. -/
theorem build_yields (files : List SchemaFile) (asyncPrefix : String) :
    Yields (fun e => ∃ scope name, e = .nameCollision scope name ∧
        Collides asyncPrefix files scope name) (build files asyncPrefix) fun _ => True := by
  refine .bind ((registerFiles_yields rfl).mono fun e he => ?_) fun _ _ _ => .ok trivial
  rcases he with ⟨name, rfl, hd⟩ | ⟨f, hf, ⟨name, rfl, hd⟩ | ⟨p, hp, name, rfl, hd⟩⟩
  · obtain ⟨m, rfl, hm⟩ := exists_module_of_duplicate hd
    exact ⟨_, _, rfl, .modules hm⟩
  · exact ⟨_, _, rfl, .top hf hd⟩
  · exact ⟨_, _, rfl, .nested hf hp hd⟩

/-- A schema has a table exactly if nothing collides in it. -/
theorem exists_build_iff_not_collides (files : List SchemaFile) (asyncPrefix : String) :
    (∃ t, build files asyncPrefix = .ok t) ↔
      ¬ ∃ scope name, Collides asyncPrefix files scope name := by
  rw [exists_build_iff]
  constructor
  · rintro ⟨hmodules, hclaimed⟩ ⟨scope, name, hc⟩
    cases hc with
    | modules h => exact h.not_nodup hmodules
    | top hf h => exact h.not_nodup (hclaimed _ hf).names
    | nested hf hp h => exact h.not_nodup ((hclaimed _ hf).innerNames _ hp)
  · intro h
    have hnodup {α : Type} {l : List α} (hl : ∀ a, ¬ List.Duplicate a l) : l.Nodup :=
      List.nodup_iff_forall_not_duplicate.mpr hl
    refine ⟨hnodup fun m hm => h ⟨_, _, .modules hm⟩, fun f hf => ⟨?_, fun p hp => ?_⟩⟩
    · exact hnodup fun name hd => h ⟨_, _, .top hf hd⟩
    · exact hnodup fun name hd => h ⟨_, _, .nested hf hp hd⟩

/-- Building a table finds exactly the collisions: it fails if and only if two files have the same
module or a scope has a name twice, and the failure shows such a scope and such a name. -/
theorem build_fails_iff (files : List SchemaFile) (asyncPrefix : String) :
    ((∃ e, build files asyncPrefix = .error e) ↔
      ∃ scope name, Collides asyncPrefix files scope name) ∧
    ∀ e, build files asyncPrefix = .error e → ∃ scope name, e = .nameCollision scope name ∧
      Collides asyncPrefix files scope name := by
  refine ⟨?_, (build_yields files asyncPrefix).1⟩
  have hiff := (exists_build_iff_not_collides files asyncPrefix).not_left
  rw [← hiff]
  cases build files asyncPrefix <;> simp

/-- A table is refused only because of a collision. -/
theorem build_collides (files : List SchemaFile) (asyncPrefix : String) :
    Yields Failure.IsCollision (build files asyncPrefix) fun _ => True := by
  refine (build_yields files asyncPrefix).mono fun e he => ?_
  obtain ⟨_, _, rfl, -⟩ := he
  trivial

end SymbolTable

end SchemaBindings
