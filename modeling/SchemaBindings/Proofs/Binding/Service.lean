import SchemaBindings.Binding.Service
import SchemaBindings.Proofs.Binding.Reference
import SchemaBindings.Proofs.Code.Paths
import SchemaBindings.Proofs.Code.Places
import SchemaBindings.Proofs.Schema.Definitions

/-!
The clients of services: each service has one client for either mode, with a function for every
method.
-/

namespace SchemaBindings.Binding

open Code

variable {c : Context}

/-- The function that stands for a method in a client. -/
def MethodEmitted (c : Context) (final : ImportSet) (mode : Mode) (s : Service) (m : Method)
    (f : Function) : Prop :=
  ∃ name request response, Refers c final 0 m.inputType request ∧
    Refers c final 0 m.outputType response ∧
      f = Call.function ⟨s.fullName, m, mode, name, request, response⟩ c.library

/-- Methods that are not supported have no part in the imports. -/
theorem imports_noteUnsupported {mode : Mode} {s : Service} {m : Method} {notes notes' : Notes}
    {done : Unit} (h : (noteUnsupported c mode s m).run notes = .ok (done, notes')) :
    notes'.imports = notes.imports := by
  unfold noteUnsupported at h
  dsimp only at h
  split at h
  · cases h
    rfl
  split at h
  · cases h
  split at h <;> cases h <;> rfl

theorem noteUnsupported_ensures (mode : Mode) (s : Service) (m : Method) :
    Ensures c (noteUnsupported c mode s m) fun _ _ => True := by
  intro notes a notes' hrun hs
  rw [imports_noteUnsupported hrun]
  exact ⟨hs, .refl _, fun _ _ => trivial⟩

theorem methodType_ensures (s : Service) (m : Method) (fullName : String) :
    Ensures c (methodType c s m fullName) fun final t => Refers c final 0 fullName t := by
  unfold methodType
  refine .bind (reference?_ensures c fullName 0) fun o => ?_
  cases o with
  | none => exact .throw
  | some t => exact .pure fun final ht => ht t rfl

theorem methodFunctions_ensures (mode : Mode) (s : Service) (methods : List Method)
    (names : Naming.Table) : Ensures c (methodFunctions c mode s methods names)
      fun final functions => List.Forall₂ (MethodEmitted c final mode s) methods functions := by
  induction methods generalizing names with
  | nil => exact .pure fun _ => .nil
  | cons m rest ih =>
    unfold methodFunctions
    refine .bind (noteUnsupported_ensures mode s m) fun _ => ?_
    refine .bind (methodType_ensures s m m.inputType) fun request => ?_
    refine .bind (methodType_ensures s m m.outputType) fun response => ?_
    refine .bindLift fun name _ => ?_
    refine .bind (ih _) fun others => ?_
    refine .pure fun final hothers hresponse hrequest _ => .cons ?_ hothers
    exact ⟨name, request, response, hrequest, hresponse, rfl⟩

/-- The client of a service in a mode is among the items. -/
def ClientEmitted (c : Context) (final : ImportSet) (mode : Mode) (s : Service)
    (items : List Item) : Prop :=
  ∃ name functions, name.text = s.clientName c.asyncPrefix mode ∧
    .client name (some s.fullName) (constructor c mode :: functions) ∈ items ∧
      List.Forall₂ (MethodEmitted c final mode s) s.methods functions

theorem ClientEmitted.mono {final : ImportSet} {mode : Mode} {s : Service} {items more : List Item}
    (h : ClientEmitted c final mode s items) (hs : items ⊆ more) :
    ClientEmitted c final mode s more :=
  let ⟨name, functions, hn, hc, hf⟩ := h
  ⟨name, functions, hn, hs hc, hf⟩

/-- All that the items define are structures. -/
def OnlyStructs (items : List Item) : Prop :=
  ∀ item ∈ items, ∀ name, item.definedName? = some name →
    ∃ attributes ident fields, item = .struct attributes ident fields

theorem OnlyStructs.append {items more : List Item} (h : OnlyStructs items)
    (h' : OnlyStructs more) : OnlyStructs (items ++ more) :=
  fun item hm => (List.mem_append.mp hm).elim (h item) (h' item)

theorem OnlyStructs.not_module {items : List Item} (h : OnlyStructs items) {path : List String}
    {attributes : List Attribute} {name : Ident} {inner : List Item} :
    ¬ ItemAt items path (.module attributes name inner) := by
  rintro (⟨hm, hn⟩ | ⟨hm, -⟩) <;> obtain ⟨_, _, _, he⟩ := h _ hm _ rfl <;> cases he

/-- The items of services: both clients of each of them, whose structures are all that is
defined. -/
structure ServicesEmitted (c : Context) (final : ImportSet) (services : List Service)
    (names : List String) (items : List Item) : Prop where
  names : definedNames items = names
  clients : ∀ s ∈ services, ∀ mode, ClientEmitted c final mode s items
  structs : OnlyStructs items
  inline : ∀ item ∈ items, item.isInline = true

theorem clientItems_ensures (mode : Mode) (s : Service) :
    Ensures c (clientItems c mode s) fun final items =>
      definedNames items = [s.clientName c.asyncPrefix mode] ∧ ClientEmitted c final mode s items ∧
        OnlyStructs items ∧ ∀ item ∈ items, item.isInline = true := by
  unfold clientItems
  refine .bindLift fun name hname => ?_
  refine .bind (methodFunctions_ensures mode s s.methods _) fun functions => ?_
  have htext : name.text = s.clientName c.asyncPrefix mode := by
    rw [Ident.text_of_ofName hname]
    cases mode <;> rfl
  refine .pure fun final hf => ⟨?_, ?_, ?_, by simp [Item.client, Item.isInline]⟩
  · exact congrArg ([·]) htext
  · exact ⟨name, functions, htext, by simp, hf⟩
  · intro item hm name' hn
    rcases List.mem_cons.mp hm with rfl | hm
    · exact ⟨_, _, _, rfl⟩
    · rw [List.mem_singleton.mp hm] at hn
      cases hn

theorem serviceItems_ensures (services : List Service) :
    Ensures c (serviceItems c services) fun final items =>
      ServicesEmitted c final services (clientNames c.asyncPrefix services) items := by
  induction services with
  | nil =>
    exact .pure fun final => ⟨rfl, by simp, by simp [OnlyStructs], by simp⟩
  | cons s rest ih =>
    unfold serviceItems
    refine .bind (clientItems_ensures .blocking s) fun blocking => ?_
    refine .bind (clientItems_ensures .suspending s) fun suspending => ?_
    refine .bind ih fun others => ?_
    refine .pure fun final ho ⟨hsn, hsc, hss, hsi⟩ ⟨hbn, hbc, hbs, hbi⟩ =>
      ⟨?_, ?_, (hbs.append hss).append ho.structs, fun item hm => ?_⟩
    · rw [definedNames_append, definedNames_append, hbn, hsn, ho.names]
      rfl
    · intro s' hs' mode
      rcases List.mem_cons.mp hs' with rfl | hs'
      · cases mode with
        | blocking => exact hbc.mono (by simp)
        | suspending => exact hsc.mono (by simp)
      · exact (ho.clients s' hs' mode).mono (by simp)
    · rcases List.mem_append.mp hm with hm | hm
      · exact (List.mem_append.mp hm).elim (hbi item) (hsi item)
      · exact ho.inline item hm

end SchemaBindings.Binding
