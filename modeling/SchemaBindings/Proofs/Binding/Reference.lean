import SchemaBindings.Binding.Reference
import SchemaBindings.Proofs.Lookup
import SchemaBindings.Proofs.Outcome

/-!
What a reference is written as. Imports that were noted are never changed, so what is said of a
reference holds with the imports that its module has in the end.
-/

namespace SchemaBindings

open Code

/-- Every name that is imported in the one set is imported from the same module in the other. -/
def ImportSet.Within (s s' : ImportSet) : Prop :=
  ∀ name m, s.get? name = some m → s'.get? name = some m

theorem ImportSet.Within.refl (s : ImportSet) : s.Within s :=
  fun _ _ h => h

theorem ImportSet.Within.trans {s s' s'' : ImportSet} (h : s.Within s') (h' : s'.Within s'') :
    s.Within s'' :=
  fun name m hm => h' name m (h name m hm)

namespace Binding

/-- Something stands for a full name: a type that it is mapped to, or a definition. -/
def Context.Knows (c : Context) (fullName : String) : Prop :=
  (c.types.extern? fullName).isSome ∨ (c.symbols.get? fullName).isSome

/-- The import of a name from a module is one of the first name of a definition there, which means
nothing else in the importing module. -/
structure Importable (c : Context) (name : String) (source : ModuleId) : Prop where
  foreign : source ≠ c.module
  free : c.symbols.isLocal c.module name = false
  definition : ∃ fullName s, c.symbols.get? fullName = some s ∧ s.module = source ∧ s.head = name

/-- Imports that a module can have. -/
structure SoundImports (c : Context) (imports : ImportSet) : Prop where
  keys : (imports.entries.map (·.1)).Nodup
  importable : ∀ name source, (name, source) ∈ imports.entries → Importable c name source

namespace SoundImports

variable {c : Context} {imports : ImportSet}

theorem empty (c : Context) : SoundImports c {} :=
  ⟨List.nodup_nil, fun _ _ h => nomatch h⟩

theorem insert (h : SoundImports c imports) {name : String} {source : ModuleId}
    (hi : Importable c name source) : SoundImports c (imports.insert name source).2 := by
  unfold ImportSet.insert
  split
  · exact h
  · next hnone =>
    have hnew : name ∉ imports.entries.map (·.1) := by
      rw [mem_keys_iff_lookup, Option.not_isSome_iff_eq_none]
      exact hnone
    refine ⟨nodup_insertSorted h.keys hnew, fun n m hm => ?_⟩
    rcases mem_of_mem_insertSorted hm with he | hm
    · cases he
      exact hi
    · exact h.importable n m hm

end SoundImports

theorem run_bind_ok {α β : Type} {x : Binder α} {f : α → Binder β} {notes notes'' : Notes} {b : β} :
    (x >>= f).run notes = .ok (b, notes'') ↔
      ∃ a notes', x.run notes = .ok (a, notes') ∧ (f a).run notes' = .ok (b, notes'') := by
  rw [StateT.run_bind, bind_ok, Prod.exists]

theorem run_lift_ok {α : Type} {x : Except Failure α} {notes notes' : Notes} {a : α}
    (h : (liftM x : Binder α).run notes = .ok (a, notes')) : x = .ok a ∧ notes = notes' := by
  obtain ⟨a', ha, he⟩ := bind_ok.mp h
  cases he
  exact ⟨ha, rfl⟩

/-- Whatever is made, the imports stay sound and none of them is lost, and the given fact holds of
it with these imports and with any further ones. -/
def Ensures (c : Context) {α : Type} (x : Binder α) (P : ImportSet → α → Prop) : Prop :=
  ∀ notes a notes', x.run notes = .ok (a, notes') → SoundImports c notes.imports →
    SoundImports c notes'.imports ∧ notes.imports.Within notes'.imports ∧
      ∀ final, notes'.imports.Within final → P final a

namespace Ensures

variable {c : Context} {α β : Type} {P : ImportSet → α → Prop} {Q : ImportSet → β → Prop}

theorem pure {a : α} (h : ∀ final, P final a) : Ensures c (Pure.pure a) P := by
  intro notes a' notes' hrun hs
  cases hrun
  exact ⟨hs, .refl _, fun final _ => h final⟩

theorem bind {x : Binder α} {f : α → Binder β} (hx : Ensures c x P)
    (hf : ∀ a, Ensures c (f a) fun final b => P final a → Q final b) : Ensures c (x >>= f) Q := by
  intro notes b notes'' hrun hs
  obtain ⟨a, notes', ha, hb⟩ := run_bind_ok.mp hrun
  obtain ⟨hs', hw, hP⟩ := hx notes a notes' ha hs
  obtain ⟨hs'', hw', hQ⟩ := hf a notes' b notes'' hb hs'
  exact ⟨hs'', hw.trans hw', fun final hfinal => hQ final hfinal (hP final (hw'.trans hfinal))⟩

/-- A step without notes. -/
theorem bindLift {x : Except Failure α} {f : α → Binder β}
    (hf : ∀ a, x = .ok a → Ensures c (f a) Q) : Ensures c (liftM x >>= f) Q := by
  intro notes b notes' hrun hs
  obtain ⟨a, _, ha, hb⟩ := run_bind_ok.mp hrun
  obtain ⟨hx, rfl⟩ := run_lift_ok ha
  exact hf a hx notes b notes' hb hs

theorem throw {e : Failure} : Ensures c (MonadExcept.throw e : Binder α) P := by
  intro notes a notes' hrun
  cases hrun

end Ensures

/-! ## References -/

/-- How a reference to a definition is written `depth` levels inside a module, given all imports
that the module has in the end. -/
inductive Written (c : Context) (final : ImportSet) (depth : Nat) (s : Symbol) (t : Ty) : Prop
  | own (names : List Ident) (h : s.module = c.module)
      (hn : s.path.mapM Ident.ofName = .ok names) (ht : relativeType depth names = .ok t)
  | imported (names : List Ident) (h : s.module ≠ c.module)
      (hi : final.get? s.head = some s.module) (hn : s.path.mapM Ident.ofName = .ok names)
      (ht : relativeType depth names = .ok t)
  | absolute (names : List Ident) (h : s.module ≠ c.module)
      (hn : s.path.mapM Ident.ofName = .ok names)
      (ht : absoluteType c.root s.module names = .ok t)

/-- What stands for a full name: the type that it is mapped to, or a reference to its definition. -/
def Refers (c : Context) (final : ImportSet) (depth : Nat) (fullName : String) (t : Ty) : Prop :=
  match c.types.extern? fullName with
  | some mapped => t = mapped
  | none => ∃ s, c.symbols.get? fullName = some s ∧ Written c final depth s t

/-- What claiming the first name of a definition says, and the imports after that. -/
inductive HeadClaimed (c : Context) (s : Symbol) (imports : ImportSet) : Bool → ImportSet → Prop
  | own (h : s.module = c.module) : HeadClaimed c s imports true imports
  | taken (h : s.module ≠ c.module) (hl : c.symbols.isLocal c.module s.head = true) :
    HeadClaimed c s imports false imports
  | inserted (h : s.module ≠ c.module) (hl : c.symbols.isLocal c.module s.head = false) :
    HeadClaimed c s imports (imports.insert s.head s.module).1
      (imports.insert s.head s.module).2

theorem claimHead_spec (c : Context) (s : Symbol) (imports : ImportSet) :
    HeadClaimed c s imports (claimHead c s imports).1 (claimHead c s imports).2 := by
  unfold claimHead
  split
  · next h => exact .own (beq_iff_eq.mp h)
  · next h =>
    have h : s.module ≠ c.module := by simpa using h
    split
    · next hl => exact .taken h hl
    · next hl => exact .inserted h (by simpa using hl)

/-- A definition whose name was found to mean it is imported from its module. -/
theorem get?_insert_fst {imports : ImportSet} {name : String} {source : ModuleId}
    (h : (imports.insert name source).1 = true) :
    (imports.insert name source).2.get? name = some source := by
  rw [ImportSet.get?_insert, if_pos (by simp)]
  unfold ImportSet.insert at h
  split at h
  · next hs =>
    rw [hs, Option.getD_some, ← beq_iff_eq.mp h]
  · next hs =>
    rw [hs, Option.getD_none]

theorem within_insert (imports : ImportSet) (name : String) (source : ModuleId) :
    imports.Within (imports.insert name source).2 := by
  intro n m h
  rw [ImportSet.get?_insert]
  split
  · next he => rw [← beq_iff_eq.mp he, h, Option.getD_some]
  · exact h

/-- The imports after the first name of a definition was claimed. -/
theorem HeadClaimed.sound {c : Context} {s : Symbol} {imports imports' : ImportSet}
    {relative : Bool} (h : HeadClaimed c s imports relative imports')
    (hs : SoundImports c imports) (hsym : ∃ fullName, c.symbols.get? fullName = some s) :
    SoundImports c imports' ∧ imports.Within imports' := by
  cases h with
  | own | taken => exact ⟨hs, .refl _⟩
  | inserted h hl =>
    obtain ⟨fullName, hsym⟩ := hsym
    exact ⟨hs.insert ⟨h, hl, fullName, s, hsym, rfl, rfl⟩, within_insert _ _ _⟩

theorem HeadClaimed.written {c : Context} {s : Symbol} {imports imports' final : ImportSet}
    {relative : Bool} {depth : Nat} {names : List Ident} {t : Ty}
    (h : HeadClaimed c s imports relative imports') (hfinal : imports'.Within final)
    (hn : s.path.mapM Ident.ofName = .ok names)
    (ht : (if relative then relativeType depth names else absoluteType c.root s.module names) =
      .ok t) : Written c final depth s t := by
  cases h with
  | own h => exact .own names h hn ht
  | taken h => exact .absolute names h hn ht
  | inserted h =>
    split at ht
    · next hr => exact .imported names h (hfinal _ _ (get?_insert_fst hr)) hn ht
    · exact .absolute names h hn ht

theorem reference?_ensures (c : Context) (fullName : String) (depth : Nat) :
    Ensures c (reference? c fullName depth) fun final o =>
      ∀ t, o = some t → Refers c final depth fullName t := by
  unfold reference? Refers
  cases hext : c.types.extern? fullName with
  | some mapped => exact .pure fun _ t ht => (Option.some.inj ht).symm
  | none =>
    cases hsym : c.symbols.get? fullName with
    | none => exact .pure fun _ t ht => nomatch ht
    | some s =>
      refine .bindLift fun names hn => ?_
      intro notes o notes' hrun hs
      obtain ⟨_, _, hget, hrun⟩ := run_bind_ok.mp hrun
      cases hget
      have hclaim := claimHead_spec c s notes.imports
      generalize claimHead c s notes.imports = claimed at hrun hclaim
      obtain ⟨relative, imports⟩ := claimed
      obtain ⟨_, _, hmodify, hrun⟩ := run_bind_ok.mp hrun
      cases hmodify
      obtain ⟨hs', hw⟩ := hclaim.sound hs ⟨fullName, hsym⟩
      have hdone : ∃ t, o = some t ∧ notes' = { notes with imports } ∧ (if relative then
          relativeType depth names else absoluteType c.root s.module names) = .ok t := by
        split at hrun <;>
        · obtain ⟨t, _, ht, hrun⟩ := run_bind_ok.mp hrun
          obtain ⟨ht, rfl⟩ := run_lift_ok ht
          cases hrun
          exact ⟨t, rfl, rfl, by simp [*]⟩
      obtain ⟨t, rfl, rfl, ht⟩ := hdone
      refine ⟨hs', hw, fun final hfinal t' ht' => ⟨s, rfl, ?_⟩⟩
      exact Option.some.inj ht' ▸ hclaim.written hfinal hn ht

end Binding

end SchemaBindings
