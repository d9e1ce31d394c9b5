import SchemaBindings.Binding.Module
import SchemaBindings.Proofs.Binding.Reference
import SchemaBindings.Proofs.Schema.Extension

/-!
Modules and larger symbol tables: what is generated for a file against a table is also generated
against any table that says the same of all that the file refers to.
-/

namespace SchemaBindings

open Code

/-- Whatever the first step gives, the second one gives as well. -/
def Keeps {α : Type} (x y : Except Failure α) : Prop :=
  ∀ a, x = .ok a → y = .ok a

namespace Keeps

variable {α β : Type} {x y : Except Failure α}

theorem refl (x : Except Failure α) : Keeps x x :=
  fun _ h => h

theorem error {e : Failure} : Keeps (.error e) y :=
  nofun

theorem bind {f f' : α → Except Failure β} (h : Keeps x y) (hf : ∀ a, Keeps (f a) (f' a)) :
    Keeps (x >>= f) (y >>= f') := by
  intro b hb
  obtain ⟨a, ha, hb⟩ := bind_ok.mp hb
  exact bind_ok.mpr ⟨a, h a ha, hf a b hb⟩

theorem mapM {f f' : α → Except Failure β} (h : ∀ a, Keeps (f a) (f' a)) (as : List α) :
    Keeps (as.mapM f) (as.mapM f') :=
  fun _ hbs => mapM_ok.mpr ((mapM_ok.mp hbs).imp h)

end Keeps

namespace Binding

/-- Whatever was noted before, the second step gives the same as the first one and notes the
same. -/
def Keeps {α : Type} (x y : Binder α) : Prop :=
  ∀ notes, SchemaBindings.Keeps (x.run notes) (y.run notes)

namespace Keeps

variable {α β : Type} {x y : Binder α}

theorem refl (x : Binder α) : Keeps x x :=
  fun _ => .refl _

theorem throw {e : Failure} : Keeps (MonadExcept.throw e) y :=
  fun _ => .error

theorem bind {f f' : α → Binder β} (h : Keeps x y) (hf : ∀ a, Keeps (f a) (f' a)) :
    Keeps (x >>= f) (y >>= f') := by
  intro notes
  rw [StateT.run_bind, StateT.run_bind]
  exact (h notes).bind fun r => hf r.1 r.2

theorem lift {x y : Except Failure α} (h : SchemaBindings.Keeps x y) :
    Keeps (liftM x : Binder α) (liftM y) :=
  fun _ => h.bind fun _ => .refl _

end Keeps

/-- A table that says the same of all that a module refers to as the one that it is generated
against. -/
abbrev Context.ExtendedBy (c : Context) (t : SymbolTable) : Prop :=
  SymbolTable.Extends (fun fullName => (c.types.extern? fullName).isSome) c.symbols t c.module

/-- The same with another symbol table. -/
def Context.against (c : Context) (t : SymbolTable) : Context :=
  { c with symbols := t }

variable {c : Context} {t : SymbolTable} {owner fullName scope : String} {depth : Nat}

/-! ## References -/

theorem claimHead_against (h : c.ExtendedBy t) (s : Symbol) (imports : ImportSet) :
    claimHead (c.against t) s imports = claimHead c s imports := by
  simp only [claimHead, Context.against, h.isLocal]

theorem reference?_against (h : c.ExtendedBy t) (hk : c.Knows fullName) :
    reference? (c.against t) fullName depth = reference? c fullName depth := by
  have hget : (c.against t).symbols.get? fullName = c.symbols.get? fullName := h.get? _ hk
  unfold reference?
  rw [hget]
  simp only [claimHead_against h]
  rfl

theorem reference?_unknown (hk : ¬ c.Knows fullName) :
    reference? c fullName depth = pure none := by
  obtain ⟨hmapped, hsymbol⟩ := not_or.mp hk
  rw [Option.not_isSome_iff_eq_none] at hmapped hsymbol
  rw [reference?, hmapped, hsymbol]

/-- What is made of a reference is the same, unless nothing is known of it. -/
theorem reference?_keeps {α : Type} (h : c.ExtendedBy t) {f f' : Option Ty → Binder α}
    (hf : c.Knows fullName → ∀ o, Keeps (f o) (f' o)) (hnone : ∃ e, f none = throw e) :
    Keeps (reference? c fullName depth >>= f) (reference? (c.against t) fullName depth >>= f') := by
  by_cases hk : c.Knows fullName
  · rw [reference?_against h hk]
    exact .bind (.refl _) (hf hk)
  · obtain ⟨e, he⟩ := hnone
    rw [reference?_unknown hk, pure_bind, he]
    exact .throw

/-! ## Messages and enums -/

theorem needsBox_against (h : c.ExtendedBy t) (hk : c.Knows fullName)
    (cardinality : Cardinality) :
    needsBox (c.against t) owner fullName cardinality =
      needsBox c owner fullName cardinality := by
  have hget : (c.against t).symbols.get? fullName = c.symbols.get? fullName := h.get? _ hk
  unfold needsBox
  rw [hget]
  cases hs : c.symbols.get? fullName with
  | none => simp
  | some s => rw [Context.against, h.isRecursive owner fullName (by simp [hs])]

theorem elementType_keeps (h : c.ExtendedBy t) (f : SchemaBindings.Field) :
    Keeps (elementType c owner depth f) (elementType (c.against t) owner depth f) := by
  unfold elementType
  split
  · exact .refl _
  · next fullName _ =>
    refine reference?_keeps h (fun hk o => ?_) ⟨_, rfl⟩
    rw [needsBox_against h hk]
    exact .refl _

theorem structField_keeps (h : c.ExtendedBy t) (name : String) (f : SchemaBindings.Field) :
    Keeps (structField c owner depth name f) (structField (c.against t) owner depth name f) := by
  unfold structField
  exact .bind (.refl _) fun ident => .bind (elementType_keeps h f) fun element => .refl _

theorem structFields_keeps (h : c.ExtendedBy t) (fields : List SchemaBindings.Field)
    (names : Naming.Table) : Keeps (structFields c owner depth fields names)
      (structFields (c.against t) owner depth fields names) := by
  induction fields generalizing names with
  | nil => exact .refl _
  | cons f rest ih =>
    unfold structFields
    exact .bind (structField_keeps h _ f) fun first => .bind (ih _) fun others => .refl _

theorem definedName_keeps (h : c.ExtendedBy t) :
    SchemaBindings.Keeps (definedName c fullName) (definedName (c.against t) fullName) := by
  unfold definedName
  cases hs : c.symbols.get? fullName with
  | none => exact .error
  | some s =>
    have hget : (c.against t).symbols.get? fullName = c.symbols.get? fullName :=
      h.get? _ (.inr (by simp [hs]))
    rw [hget, hs]
    exact .refl _

theorem enumItem_keeps (h : c.ExtendedBy t) (e : SchemaBindings.Enum) :
    SchemaBindings.Keeps (enumItem c scope e) (enumItem (c.against t) scope e) := by
  unfold enumItem
  exact .bind (definedName_keeps h) fun name => .refl _

theorem enumItems_keeps (h : c.ExtendedBy t) (enums : List SchemaBindings.Enum) :
    Keeps (liftM (enums.mapM (enumItem c scope)) : Binder (List Item))
      (liftM (enums.mapM (enumItem (c.against t) scope))) :=
  .lift (.mapM (enumItem_keeps h) enums)

mutual

theorem messageItems_keeps (h : c.ExtendedBy t) (m : Message) (scope : String) (depth : Nat) :
    Keeps (messageItems c scope depth m) (messageItems (c.against t) scope depth m) := by
  obtain ⟨name, fields, messages, enums, docs⟩ := m
  rw [messageItems, messageItems]
  refine .bind (.lift (definedName_keeps h)) fun ident => ?_
  refine .bind (structFields_keeps h fields _) fun fields => ?_
  dsimp only
  split
  · exact .refl _
  · refine .bind (.refl _) fun module => ?_
    refine .bind (enumItems_keeps h enums) fun enums => ?_
    exact .bind (allMessageItems_keeps h messages _ _) fun messages => .refl _

theorem allMessageItems_keeps (h : c.ExtendedBy t) (ms : List Message) (scope : String)
    (depth : Nat) :
    Keeps (allMessageItems c scope depth ms) (allMessageItems (c.against t) scope depth ms) := by
  match ms with
  | [] =>
    rw [allMessageItems, allMessageItems]
    exact .refl _
  | m :: rest =>
    rw [allMessageItems, allMessageItems]
    refine .bind (messageItems_keeps h m scope depth) fun first => ?_
    exact .bind (allMessageItems_keeps h rest scope depth) fun others => .refl _

end

/-! ## Services -/

theorem methodType_keeps (h : c.ExtendedBy t) (s : Service) (m : Method) (fullName : String) :
    Keeps (methodType c s m fullName) (methodType (c.against t) s m fullName) := by
  unfold methodType
  exact reference?_keeps h (fun _ o => .refl _) ⟨_, rfl⟩

theorem methodFunctions_keeps (h : c.ExtendedBy t) (mode : Mode) (s : Service)
    (methods : List Method) (names : Naming.Table) : Keeps (methodFunctions c mode s methods names)
      (methodFunctions (c.against t) mode s methods names) := by
  induction methods generalizing names with
  | nil => exact .refl _
  | cons m rest ih =>
    unfold methodFunctions
    refine .bind (.refl _) fun _ => ?_
    refine .bind (methodType_keeps h s m m.inputType) fun request => ?_
    refine .bind (methodType_keeps h s m m.outputType) fun response => ?_
    refine .bind (.refl _) fun name => ?_
    exact .bind (ih _) fun others => .refl _

theorem clientItems_keeps (h : c.ExtendedBy t) (mode : Mode) (s : Service) :
    Keeps (clientItems c mode s) (clientItems (c.against t) mode s) := by
  unfold clientItems
  refine .bind (.refl _) fun name => ?_
  exact .bind (methodFunctions_keeps h mode s s.methods _) fun functions => .refl _

theorem serviceItems_keeps (h : c.ExtendedBy t) (services : List Service) :
    Keeps (serviceItems c services) (serviceItems (c.against t) services) := by
  induction services with
  | nil => exact .refl _
  | cons s rest ih =>
    unfold serviceItems
    refine .bind (clientItems_keeps h .blocking s) fun blocking => ?_
    refine .bind (clientItems_keeps h .suspending s) fun suspending => ?_
    exact .bind ih fun others => .refl _

/-- The items of a file are the same, and so is what is noted of it. -/
theorem moduleFile_keeps (h : c.ExtendedBy t) (f : SchemaFile) :
    Keeps (moduleFile c f) (moduleFile (c.against t) f) := by
  unfold moduleFile
  refine .bind (enumItems_keeps h f.enums) fun enums => ?_
  refine .bind (allMessageItems_keeps h f.messages _ _) fun messages => ?_
  exact .bind (serviceItems_keeps h f.services) fun services => .refl _

end Binding

end SchemaBindings
