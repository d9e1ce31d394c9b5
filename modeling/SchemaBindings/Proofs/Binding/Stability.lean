import SchemaBindings.Proofs.Binding.Lone
import SchemaBindings.Proofs.Code.Paths
import SchemaBindings.Proofs.Package.Generate

/-!
References that are made one after the other. Whichever definition comes first claims a name, but
what is claimed is never given up, so a reference is written in the same way whenever it is made
again.
-/

namespace SchemaBindings

open Code

/-! ## Claimed names -/

namespace ImportSet

variable {imports later : ImportSet} {name : String} {source : ModuleId}

/-- A name that is imported from another module stays with this module. -/
theorem insert_refused (h : (imports.insert name source).1 = false) :
    (imports.insert name source).2 = imports ∧
      ∃ other, imports.get? name = some other ∧ other ≠ source := by
  unfold insert at h ⊢
  split at h
  · next other ho => exact ⟨rfl, other, ho, by simpa using h⟩
  · cases h

theorem insert_of_get?_eq (h : imports.get? name = some source) :
    imports.insert name source = (true, imports) := by
  simp [insert, h]

theorem insert_of_get?_ne {other : ModuleId} (h : imports.get? name = some other)
    (hne : other ≠ source) : imports.insert name source = (false, imports) := by
  simp [insert, h, hne]

end ImportSet

namespace Binding

variable {c : Context} {fullName : String} {depth : Nat} {imports imports' later : ImportSet}
  {o : Option Ty} {s : Symbol} {names : List Ident} {notes notes' : Notes}

/-! ## One reference -/

/-- The full name stands for a definition, whose names are identifiers. -/
structure Defines (c : Context) (fullName : String) (s : Symbol) (names : List Ident) : Prop where
  unmapped : c.types.extern? fullName = none
  symbol : c.symbols.get? fullName = some s
  path : s.path.mapM Ident.ofName = .ok names

/-- What becomes of a reference from `depth` levels inside the module, and of the imports: only a
definition of another module that is referred to by its imported name has an import. -/
inductive Referred (c : Context) (fullName : String) (depth : Nat) (imports : ImportSet) :
    Option Ty → ImportSet → Prop
  | mapped {t : Ty} (h : c.types.extern? fullName = some t) :
    Referred c fullName depth imports (some t) imports
  | unknown (hm : c.types.extern? fullName = none) (hs : c.symbols.get? fullName = none) :
    Referred c fullName depth imports none imports
  | own {s : Symbol} {names : List Ident} {t : Ty} (hd : Defines c fullName s names)
      (hs : s.module = c.module) (ht : relativeType depth names = .ok t) :
    Referred c fullName depth imports (some t) imports
  | imported {s : Symbol} {names : List Ident} {t : Ty} (hd : Defines c fullName s names)
      (hs : s.module ≠ c.module) (hl : c.symbols.isLocal c.module s.head = false)
      (hi : (imports.insert s.head s.module).1 = true) (ht : relativeType depth names = .ok t) :
    Referred c fullName depth imports (some t) (imports.insert s.head s.module).2
  | absolute {s : Symbol} {names : List Ident} {t : Ty} (hd : Defines c fullName s names)
      (hs : s.module ≠ c.module)
      (hc : c.symbols.isLocal c.module s.head = true ∨
        (imports.insert s.head s.module).1 = false)
      (ht : absoluteType c.root s.module names = .ok t) :
    Referred c fullName depth imports (some t) imports

section Claims

variable (hs : s.module ≠ c.module)

theorem claimHead_own (h : s.module = c.module) : claimHead c s imports = (true, imports) := by
  simp [claimHead, h]

include hs

theorem claimHead_imported (hl : c.symbols.isLocal c.module s.head = false)
    (hi : (imports.insert s.head s.module).1 = true) :
    claimHead c s imports = (true, (imports.insert s.head s.module).2) :=
  calc claimHead c s imports = imports.insert s.head s.module := by simp [claimHead, hs, hl]
    _ = (true, (imports.insert s.head s.module).2) := Prod.ext hi rfl

theorem claimHead_absolute (hc : c.symbols.isLocal c.module s.head = true ∨
    (imports.insert s.head s.module).1 = false) : claimHead c s imports = (false, imports) := by
  cases hl : c.symbols.isLocal c.module s.head with
  | true => simp [claimHead, hs, hl]
  | false =>
    have hi := hc.resolve_left (by simp [hl])
    have hinsert : imports.insert s.head s.module = (false, imports) :=
      Prod.ext hi (ImportSet.insert_refused hi).1
    simp [claimHead, hs, hl, hinsert]

end Claims

/-- A reference to a definition is relative where its first name is claimed, and absolute
elsewhere. -/
theorem Defines.run_ok (hd : Defines c fullName s names) {relative : Bool}
    (hclaim : claimHead c s notes.imports = (relative, imports)) :
    (reference? c fullName depth).run notes = .ok (o, notes') ↔ ∃ t,
      (if relative then relativeType depth names else absoluteType c.root s.module names) = .ok t ∧
        o = some t ∧ notes' = { notes with imports } := by
  rw [reference?_defined hd.unmapped hd.symbol hd.path, hclaim, bind_ok]
  simp only [Except.ok.injEq, Prod.mk.injEq, eq_comm]

theorem Defines.referred (hd : Defines c fullName s names)
    (h : (reference? c fullName depth).run notes = .ok (o, notes')) :
    ∃ imports, Referred c fullName depth notes.imports o imports ∧
      notes' = { notes with imports } := by
  rcases eq_or_ne s.module c.module with hs | hs
  · obtain ⟨t, ht, rfl, rfl⟩ := (hd.run_ok (claimHead_own hs)).mp h
    exact ⟨_, .own hd hs ht, rfl⟩
  cases hl : c.symbols.isLocal c.module s.head with
  | true =>
    obtain ⟨t, ht, rfl, rfl⟩ := (hd.run_ok (claimHead_absolute hs (.inl hl))).mp h
    exact ⟨_, .absolute hd hs (.inl hl) ht, rfl⟩
  | false =>
    cases hi : (notes.imports.insert s.head s.module).1 with
    | true =>
      obtain ⟨t, ht, rfl, rfl⟩ := (hd.run_ok (claimHead_imported hs hl hi)).mp h
      exact ⟨_, .imported hd hs hl hi ht, rfl⟩
    | false =>
      obtain ⟨t, ht, rfl, rfl⟩ := (hd.run_ok (claimHead_absolute hs (.inr hi))).mp h
      exact ⟨_, .absolute hd hs (.inr hi) ht, rfl⟩

theorem reference?_referred (h : (reference? c fullName depth).run notes = .ok (o, notes')) :
    ∃ imports, Referred c fullName depth notes.imports o imports ∧
      notes' = { notes with imports } := by
  cases hm : c.types.extern? fullName with
  | some t =>
    rw [reference?_mapped hm] at h
    cases h
    exact ⟨_, .mapped hm, rfl⟩
  | none =>
    cases hs : c.symbols.get? fullName with
    | none =>
      rw [reference?, hm] at h
      dsimp only at h
      rw [hs] at h
      cases h
      exact ⟨_, .unknown hm hs, rfl⟩
    | some s =>
      cases hp : s.path.mapM Ident.ofName with
      | ok names => exact Defines.referred ⟨hm, hs, hp⟩ h
      | error e =>
        rw [reference?, hm] at h
        dsimp only at h
        rw [hs] at h
        dsimp only at h
        rw [run_bind_of_error (run_lift_of_error hp)] at h
        cases h

namespace Referred

/-- What becomes of a reference is what the run says. -/
theorem run (h : Referred c fullName depth notes.imports o imports) :
    (reference? c fullName depth).run notes = .ok (o, { notes with imports }) := by
  cases h with
  | mapped hm => exact reference?_mapped hm
  | unknown hm hs =>
    rw [reference?, hm]
    dsimp only
    rw [hs]
    rfl
  | own hd hs ht => exact (hd.run_ok (claimHead_own hs)).mpr ⟨_, ht, rfl, rfl⟩
  | imported hd hs hl hi ht =>
    exact (hd.run_ok (claimHead_imported hs hl hi)).mpr ⟨_, ht, rfl, rfl⟩
  | absolute hd hs hc ht => exact (hd.run_ok (claimHead_absolute hs hc)).mpr ⟨_, ht, rfl, rfl⟩

/-- There is one type for a reference and given imports. -/
theorem unique {o' : Option Ty} {imports'' : ImportSet}
    (h : Referred c fullName depth imports o imports')
    (h' : Referred c fullName depth imports o' imports'') : o = o' := by
  have hrun : (reference? c fullName depth).run { imports } = .ok (o, { imports := imports' }) :=
    h.run
  have hrun' : (reference? c fullName depth).run { imports } =
      .ok (o', { imports := imports'' }) := h'.run
  rw [hrun] at hrun'
  cases hrun'
  rfl

theorem within (h : Referred c fullName depth imports o imports') : imports.Within imports' := by
  cases h with
  | mapped | unknown | own | absolute => exact .refl _
  | imported => exact within_insert _ _ _

/-- A reference is written in the same way when it is made again, whatever was imported in between,
and needs no further import. -/
theorem again (h : Referred c fullName depth imports o imports') (hw : imports'.Within later) :
    Referred c fullName depth later o later := by
  -- Only the last two cases look at the imports: a name that was claimed still leads to the same
  -- module, and one that leads elsewhere is refused again.
  cases h with
  | mapped hm => exact .mapped hm
  | unknown hm hs => exact .unknown hm hs
  | own hd hs ht => exact .own hd hs ht
  | @imported s names t hd hs hl hi ht =>
    have hinsert := ImportSet.insert_of_get?_eq (hw _ _ (get?_insert_fst hi))
    have himported := Referred.imported hd hs hl (congrArg Prod.fst hinsert) ht
    rwa [hinsert] at himported
  | absolute hd hs hc ht =>
    refine .absolute hd hs (hc.imp_right fun hi => ?_) ht
    obtain ⟨-, other, hother, hne⟩ := ImportSet.insert_refused hi
    rw [ImportSet.insert_of_get?_ne (hw _ _ hother) hne]

end Referred

/-- References by full name and by depth, in order. -/
def references (c : Context) (calls : List (String × Nat)) : Binder (List (Option Ty)) :=
  calls.mapM fun call => reference? c call.1 call.2

/-- What becomes of each of several references, and of the imports in the end. -/
inductive ReferredEach (c : Context) :
    ImportSet → List (String × Nat) → List (Option Ty) → ImportSet → Prop
  | nil {imports : ImportSet} : ReferredEach c imports [] [] imports
  | cons {imports imports' final : ImportSet} {call : String × Nat} {rest : List (String × Nat)}
      {o : Option Ty} {types : List (Option Ty)}
      (first : Referred c call.1 call.2 imports o imports')
      (behind : ReferredEach c imports' rest types final) :
    ReferredEach c imports (call :: rest) (o :: types) final

variable {calls : List (String × Nat)} {types : List (Option Ty)} {final : ImportSet}

theorem references_referred (h : (references c calls).run notes = .ok (types, notes')) :
    ReferredEach c notes.imports calls types notes'.imports := by
  induction calls generalizing notes types with
  | nil =>
    cases h
    exact .nil
  | cons call rest ih =>
    rw [references, List.mapM_cons] at h
    obtain ⟨o, between, ho, h⟩ := run_bind_ok.mp h
    obtain ⟨others, _, hothers, h⟩ := run_bind_ok.mp h
    cases h
    obtain ⟨imports, hreferred, rfl⟩ := reference?_referred ho
    exact .cons hreferred (ih hothers)

/-- References in front of others are made first. -/
theorem references_append {front back : List (String × Nat)} :
    references c (front ++ back) = do
      let given ← references c front
      let others ← references c back
      return given ++ others :=
  List.mapM_append

namespace ReferredEach

theorem within (h : ReferredEach c imports calls types final) : imports.Within final := by
  induction h with
  | nil => exact .refl _
  | cons first _ ih => exact first.within.trans ih

/-- All references are written in the same way when they are made again in the end. -/
theorem again (h : ReferredEach c imports calls types final) :
    List.Forall₂ (fun call o => Referred c call.1 call.2 final o final) calls types := by
  induction h with
  | nil => exact .nil
  | cons first behind ih => exact .cons (first.again behind.within) ih

end ReferredEach

/-- The reference to a definition of another module by its first name, which leads to the module
`source`. -/
structure ImportedBy (c : Context) (name : String) (source : ModuleId) (call : String × Nat)
    (o : Option Ty) : Prop where
  foreign : source ≠ c.module
  free : c.symbols.isLocal c.module name = false
  definition : ∃ s, c.symbols.get? call.1 = some s ∧ s.head = name ∧ s.module = source ∧
    ∃ t, o = some t ∧ t.tokens = (Path.relative call.2 s.path).tokens

/-- The names of a relative type are written behind the steps out of the module, also where they
are an underscore alone, which is no path. -/
theorem tokens_relativeType {t : Ty} (h : relativeType depth names = .ok t) :
    t.tokens = (Path.relative depth (names.map (·.text))).tokens := by
  unfold relativeType at h
  split at h
  · next hlone =>
    obtain ⟨rfl, rfl⟩ := hlone
    cases h
    rfl
  split at h
  · cases h
  · cases h
    simp [Path.relative, Path.ofNames, Function.comp_def, Ty.tokens]

theorem Referred.importedBy {call : String × Nat} (h : Referred c call.1 call.2 imports o imports')
    {name : String} {source : ModuleId} (hmem : (name, source) ∈ imports'.entries) :
    (name, source) ∈ imports.entries ∨ ImportedBy c name source call o := by
  cases h with
  | mapped | unknown | own | absolute => exact .inl hmem
  | @imported s names t hd hs hl hi ht =>
    rw [ImportSet.insert] at hmem
    split at hmem
    · exact .inl hmem
    · refine (mem_of_mem_insertSorted hmem).symm.imp_right fun he => ?_
      cases he
      refine ⟨hs, hl, s, hd.symbol, rfl, rfl, t, rfl, ?_⟩
      rw [tokens_relativeType ht, Ident.texts_of_mapM hd.path]

/-- Every import that was not there before belongs to one of the references. -/
theorem ReferredEach.importedBy (h : ReferredEach c imports calls types final)
    {name : String} {source : ModuleId} (hmem : (name, source) ∈ final.entries) :
    (name, source) ∈ imports.entries ∨
      ∃ call o, (call, o) ∈ calls.zip types ∧ ImportedBy c name source call o := by
  induction h with
  | nil => exact .inl hmem
  | cons first _ ih =>
    rcases ih hmem with hmem | ⟨call, o, hzip, hby⟩
    · refine (first.importedBy hmem).imp_right fun hby => ⟨_, _, ?_, hby⟩
      exact List.mem_cons_self
    · exact .inr ⟨call, o, List.mem_cons_of_mem _ hzip, hby⟩

theorem Referred.sound (h : Referred c fullName depth imports o imports')
    (hs : SoundImports c imports) : SoundImports c imports' :=
  (reference?_ensures c fullName depth { imports } o _ h.run hs).1

theorem ReferredEach.sound (h : ReferredEach c imports calls types final)
    (hs : SoundImports c imports) : SoundImports c final := by
  induction h with
  | nil => exact hs
  | cons first _ ih => exact ih (first.sound hs)

/-- However references follow each other, each is written in one way only, imports are added but
never changed, and only by a reference that uses them: it is relative and begins with the imported
name. -/
theorem references_stable (h : (references c calls).run {} = .ok (types, notes)) :
    calls.length = types.length ∧
    (∀ call o o', (call, o) ∈ calls.zip types → (call, o') ∈ calls.zip types → o = o') ∧
    (∀ front call back, calls = front ++ call :: back → ∃ given before o after,
      (references c front).run {} = .ok (given, before) ∧ given ++ [o] <+: types ∧
      (reference? c call.1 call.2).run before = .ok (o, after) ∧
      Referred c call.1 call.2 before.imports o after.imports ∧
      before.imports.Within after.imports ∧ after.imports.Within notes.imports) ∧
    (notes.imports.entries.map (·.1)).Nodup ∧
    ∀ name source, (name, source) ∈ notes.imports.entries →
      ∃ call o, (call, o) ∈ calls.zip types ∧ ImportedBy c name source call o := by
  have heach := references_referred h
  obtain ⟨hlength, hagain⟩ := List.forall₂_iff_zip.mp heach.again
  refine ⟨hlength, fun call o o' ho ho' => (hagain ho).unique (hagain ho'), ?_,
    (heach.sound (.empty c)).keys, ?_⟩
  · rintro front call back rfl
    rw [references_append] at h
    obtain ⟨given, before, hgiven, h⟩ := run_bind_ok.mp h
    obtain ⟨others, _, hothers, h⟩ := run_bind_ok.mp h
    cases h
    rw [references, List.mapM_cons] at hothers
    obtain ⟨o, after, ho, hothers⟩ := run_bind_ok.mp hothers
    obtain ⟨behind, _, hbehind, hothers⟩ := run_bind_ok.mp hothers
    cases hothers
    obtain ⟨imports, hreferred, rfl⟩ := reference?_referred ho
    refine ⟨given, before, o, _, hgiven, ⟨behind, by simp⟩, ho, hreferred, hreferred.within, ?_⟩
    exact (references_referred hbehind).within
  · intro name source hmem
    exact (heach.importedBy hmem).resolve_left (List.not_mem_nil)

/-- Three files, of which the last two both define `X`, and a message that only the first and the
second have. -/
def rivals : List SchemaFile :=
  [{ path := "a.proto", package := "p"
     messages := [{ name := "Local", messages := [{ name := "Inner" }] }] },
   { path := "b.proto", package := "q"
     messages := [{ name := "X", messages := [{ name := "Y" }] }, { name := "Local" }] },
   { path := "c.proto", package := "r", messages := [{ name := "X" }] }]

/-- What the first of these files is generated against. -/
def rivalContext : Context :=
  { Package.plain.context ((SymbolTable.build rivals "Async").toOption.getD {})
      { path := "a.proto", package := "p" } with
    types := ⟨[], [("g.T", .path (.ofNames true ["time", "T"]))]⟩ }

/-- References to all of them, the same ones before and after others. -/
def rivalCalls : List (String × Nat) :=
  [("r.X", 1), ("q.X", 1), ("q.X.Y", 0), ("q.Local", 0), ("p.Local.Inner", 2), ("g.T", 0),
    ("nowhere", 0), ("q.X", 1), ("r.X", 1)]

def rivalMade : List (Option Ty) × Notes :=
  ((references rivalContext rivalCalls).run {}).toOption.getD ([], {})

/-- The names of a type that is a path. -/
def pathNames : Ty → List String
  | .path p => p.names
  | _ => []

theorem references_stable_rivals :
    (references rivalContext rivalCalls).run {} = .ok rivalMade ∧
    rivalMade.1.map (·.map pathNames) = [some ["super", "X"], some ["crate", "b", "X"],
      some ["x", "Y"], some ["crate", "b", "Local"], some ["super", "super", "local", "Inner"],
      some ["time", "T"], none, some ["crate", "b", "X"], some ["super", "X"]] ∧
    rivalMade.2.imports.entries = [("X", ⟨["c"]⟩), ("x", ⟨["b"]⟩)] ∧
    (∀ call o o', (call, o) ∈ rivalCalls.zip rivalMade.1 →
      (call, o') ∈ rivalCalls.zip rivalMade.1 → o = o') ∧
    ∀ name source, (name, source) ∈ rivalMade.2.imports.entries →
      ∃ call o, (call, o) ∈ rivalCalls.zip rivalMade.1 ∧
        ImportedBy rivalContext name source call o := by
  have hrun : (references rivalContext rivalCalls).run {} = .ok rivalMade :=
    ok_getD ([], {}) (by decide +kernel)
  obtain ⟨-, hsame, -, -, hused⟩ := references_stable hrun
  exact ⟨hrun, by decide +kernel, by decide +kernel, hsame, hused⟩

end Binding

end SchemaBindings
