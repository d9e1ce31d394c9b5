import SchemaBindings.Binding.Reference
import SchemaBindings.Proofs.Outcome

/-!
Steps that fail in some ways only. Above all they never fail for a reason that lies in the generated
code: that it is malformed, that a name cannot be used in it, or that it cannot be laid out. Every
other failure says what is wrong with the schema or the settings.
-/

namespace SchemaBindings

/-- A step fails in the allowed ways only, and what it gives has a property. -/
def Yields (allowed : Failure → Prop) {α : Type} (x : Except Failure α) (P : α → Prop) : Prop :=
  (∀ e, x = .error e → allowed e) ∧ ∀ a, x = .ok a → P a

namespace Yields

variable {allowed : Failure → Prop} {α β : Type} {x : Except Failure α} {P : α → Prop}
  {Q : β → Prop}

theorem ok {a : α} (h : P a) : Yields allowed (.ok a) P :=
  ⟨nofun, fun _ he => Except.ok.inj he ▸ h⟩

theorem of_eq_ok {a : α} (hx : x = .ok a) (h : P a) : Yields allowed x P :=
  hx ▸ .ok h

theorem error {e : Failure} (h : allowed e) : Yields allowed (.error e) P :=
  ⟨fun _ he => Except.error.inj he ▸ h, nofun⟩

theorem bind {f : α → Except Failure β} (hx : Yields allowed x P)
    (hf : ∀ a, x = .ok a → P a → Yields allowed (f a) Q) : Yields allowed (x >>= f) Q := by
  cases x with
  | error e => exact .error (hx.1 e rfl)
  | ok a => exact hf a rfl (hx.2 a rfl)

theorem map {f : α → β} (hx : Yields allowed x P) (hf : ∀ a, P a → Q (f a)) :
    Yields allowed (f <$> x) Q := by
  rw [map_eq_pure_bind]
  exact hx.bind fun a _ ha => .ok (hf a ha)

theorem weaken (h : Yields allowed x P) : Yields allowed x fun _ => True :=
  ⟨h.1, fun _ _ => trivial⟩

/-- The same step for every element of a list. -/
theorem mapM {f : α → Except Failure β} {as : List α} (h : ∀ a ∈ as, Yields allowed (f a) Q) :
    Yields allowed (as.mapM f) fun bs => ∀ b ∈ bs, Q b := by
  induction as with
  | nil => exact .ok nofun
  | cons a rest ih =>
    obtain ⟨ha, hrest⟩ := List.forall_mem_cons.mp h
    rw [List.mapM_cons]
    refine ha.bind fun b _ hb => (ih hrest).bind fun bs _ hbs => .ok ?_
    exact List.forall_mem_cons.mpr ⟨hb, hbs⟩

theorem mono {allowed' : Failure → Prop} (h : Yields allowed x P)
    (ha : ∀ e, allowed e → allowed' e) : Yields allowed' x P :=
  ⟨fun e he => ha e (h.1 e he), h.2⟩

end Yields

/-- The failures that say nothing about what a schema should be like. -/
def Failure.IsDefect : Failure → Prop
  | .malformedCode | .unusableName | .unprintable => True
  | _ => False

/-- A step never fails with a defect, and what it gives has a property. -/
abbrev Faultless {α : Type} (x : Except Failure α) (P : α → Prop) : Prop :=
  Yields (fun e => ¬ e.IsDefect) x P

namespace Binding

/-- Whatever was noted before, a part of a module fails to be made in the allowed ways only. -/
def Yields (allowed : Failure → Prop) {α : Type} (x : Binder α) (P : α → Prop) : Prop :=
  ∀ notes, SchemaBindings.Yields allowed (x.run notes) fun r => P r.1

namespace Yields

variable {allowed : Failure → Prop} {α β : Type} {x : Binder α} {P : α → Prop} {Q : β → Prop}

theorem pure {a : α} (h : P a) : Yields allowed (Pure.pure a : Binder α) P :=
  fun _ => .ok h

theorem throw {e : Failure} (h : allowed e) :
    Yields allowed (MonadExcept.throw e : Binder α) P :=
  fun _ => .error h

theorem bind {f : α → Binder β} (hx : Yields allowed x P)
    (hf : ∀ a, P a → Yields allowed (f a) Q) : Yields allowed (x >>= f) Q := by
  intro notes
  rw [StateT.run_bind]
  exact (hx notes).bind fun r _ hr => hf r.1 hr r.2

/-- A step without notes. -/
theorem lift {y : Except Failure α} (h : SchemaBindings.Yields allowed y P) :
    Yields allowed (liftM y : Binder α) P :=
  fun _ => h.bind fun _ _ ha => .ok ha

theorem bindLift {y : Except Failure α} {f : α → Binder β}
    (h : SchemaBindings.Yields allowed y P) (hf : ∀ a, P a → Yields allowed (f a) Q) :
    Yields allowed (liftM y >>= f) Q :=
  (lift h).bind hf

end Yields

/-- Whatever was noted before, a part of a module is made without a fault. -/
abbrev Faultless {α : Type} (x : Binder α) (P : α → Prop) : Prop :=
  Yields (fun e => ¬ e.IsDefect) x P

end Binding

end SchemaBindings
