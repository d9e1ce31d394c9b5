import SchemaBindings.Proofs.Code.Paths
import SchemaBindings.Proofs.Lookup
import SchemaBindings.TypeMap

/-!
What a type means in a scope. A bare name means what the scope calls so, and only if the scope has
no such name it means the type of that name that is built into the language; a path that begins at
the root means the same in every scope.
-/

namespace SchemaBindings.Code

/-- The types that are built into the language. -/
def builtIns : List String :=
  ["bool", "char", "f32", "f64", "i8", "i16", "i32", "i64", "i128", "isize", "str", "u8", "u16",
   "u32", "u64", "u128", "usize"]

inductive Meaning where
  | builtIn (name : String)
  /-- What a path from the root of all paths means. -/
  | absolute (path : Path)
  /-- What a path that begins in a scope means there. -/
  | scoped (scope : List String) (path : Path)
  | applied (head : Meaning) (args : List Meaning)
  /-- A type whose meaning is not looked into. -/
  | other (scope : List String) (type : Ty)

/-- The meaning of a path among the names of a scope. -/
def Path.meaning (scope : List String) (p : Path) : Meaning :=
  match p with
  | .mk true _ => .absolute p
  | .mk false [.mk ident .none] =>
    if scope.contains ident.text || !builtIns.contains ident.text then .scoped scope p
    else .builtIn ident.text
  | .mk false _ => .scoped scope p

mutual

def Ty.meaning (scope : List String) : Ty → Meaning
  | .path p => p.meaning scope
  | .applied p args => .applied (p.meaning scope) (meaningsOf scope args)
  | t => .other scope t

def meaningsOf (scope : List String) : List Ty → List Meaning
  | [] => []
  | t :: rest => t.meaning scope :: meaningsOf scope rest

end

variable {scope : List String} {name : String} {r : Relocation}

/-- Only the bare name of a built-in type means it, and only where nothing else is called so. -/
theorem Path.meaning_eq_builtIn {p : Path} : p.meaning scope = .builtIn name ↔
    p = .ofNames false [name] ∧ name ∉ scope ∧ name ∈ builtIns := by
  constructor
  · intro h
    unfold meaning at h
    split at h
    · cases h
    · next ident =>
      split at h
      · cases h
      · next hfree =>
        cases h
        obtain ⟨hscope, hbuilt⟩ : ident.text ∉ scope ∧ ident.text ∈ builtIns := by
          simpa using hfree
        exact ⟨rfl, hscope, hbuilt⟩
    · cases h
  · rintro ⟨rfl, hscope, hbuilt⟩
    have hfree : (scope.contains name || !builtIns.contains name) = false := by
      simp [hscope, hbuilt]
    simp only [ofNames, List.map_cons, List.map_nil, meaning, hfree]
    rfl

theorem Ty.global_inj {names : List String} {t t' : Ty} :
    global names t = global names t' ↔ t = t' := by
  simp [global]

theorem Ty.global_meaning_iff {names scope' : List String} {t t' : Ty} :
    (global names t).meaning scope = (global names t').meaning scope' ↔
      t.meaning scope = t'.meaning scope' := by
  have hhead : (Path.ofNames true names).meaning scope = (Path.ofNames true names).meaning scope' :=
    rfl
  simp [global, meaning, meaningsOf, hhead]

/-! ## Types of scalars -/

/-- The bare name in the type of a scalar: the type itself or the type of its elements. -/
def Ty.bareName? : Ty → Option String
  | .path (.mk false [.mk ident .none]) => some ident.text
  | .applied (.mk true _) [.path (.mk false [.mk ident .none])] => some ident.text
  | _ => none

/-- The types that scalars have without any setting: those of the language, lists of such, and types
given by a path from the root. -/
inductive IsScalar : Ty → Prop
  | primitive {name : String} (h : name ∈ builtIns) : IsScalar (TypeMap.primitive name)
  | list {name : String} (names : List String) (h : name ∈ builtIns) :
    IsScalar (.global names (TypeMap.primitive name))
  | absolute (names : List String) : IsScalar (.path (.ofNames true names))

theorem isScalar_of_lookup {kind : String} {t : Ty}
    (h : TypeMap.defaultScalars.lookup kind = some t) : IsScalar t := by
  have hmem := mem_of_lookup h
  simp only [TypeMap.defaultScalars, List.mem_cons, Prod.mk.injEq, List.not_mem_nil,
    or_false] at hmem
  rcases hmem with ⟨-, rfl⟩ | ⟨-, rfl⟩ | ⟨-, rfl⟩ | ⟨-, rfl⟩ | ⟨-, rfl⟩ | ⟨-, rfl⟩ | ⟨-, rfl⟩ |
    ⟨-, rfl⟩ | ⟨-, rfl⟩ | ⟨-, rfl⟩ | ⟨-, rfl⟩ | ⟨-, rfl⟩ | ⟨-, rfl⟩ | ⟨-, rfl⟩ | ⟨-, rfl⟩
  all_goals first
    | exact .primitive (by decide)
    | exact .list _ (by decide)
    | exact .absolute _

theorem Path.relocate_absolute (names : List String) :
    ((ofNames true names).mapTypes (Ty.relocateHead r)).relocateHead r = ofNames true names := by
  rw [mapTypes_ofNames]
  exact relocateHead_of_leading rfl

theorem primitive_meaning (h : name ∈ builtIns) :
    ((TypeMap.primitive name).relocate r).meaning scope = (TypeMap.primitive name).meaning [] ↔
      (TypeMap.primitive name).relocate r = TypeMap.primitive name ∧ name ∉ scope := by
  have hbare : (TypeMap.primitive name).meaning [] = .builtIn name :=
    Path.meaning_eq_builtIn.mpr ⟨rfl, List.not_mem_nil, h⟩
  rw [hbare]
  constructor
  · intro he
    obtain ⟨hpath, hscope, -⟩ := Path.meaning_eq_builtIn.mp he
    exact ⟨congrArg Ty.path hpath, hscope⟩
  · rintro ⟨hkept, hscope⟩
    rw [hkept]
    exact Path.meaning_eq_builtIn.mpr ⟨rfl, hscope, h⟩

/-- The type of a scalar keeps its meaning in a scope exactly if it stays as it is and the scope
does not call anything by its bare name. -/
theorem IsScalar.meaning_iff {t : Ty} (h : IsScalar t) :
    (t.relocate r).meaning scope = t.meaning [] ↔
      t.relocate r = t ∧ ∀ name, t.bareName? = some name → name ∉ scope := by
  cases h with
  | primitive h =>
    rw [primitive_meaning h]
    refine and_congr_right fun _ => ?_
    simp [TypeMap.primitive, Path.ofNames, Ty.bareName?]
  | @list name names h =>
    rw [Ty.relocate_global, Ty.global_meaning_iff, Ty.global_inj, primitive_meaning h]
    simp [Ty.global, TypeMap.primitive, Path.ofNames, Ty.bareName?]
  | absolute names =>
    have hnone : (Ty.path (.ofNames true names)).bareName? = none := rfl
    refine iff_of_true ?_ ⟨congrArg Ty.path (Path.relocate_absolute names), by simp [hnone]⟩
    rw [Ty.relocate_path, Path.relocate_absolute]
    rfl

/-- A type of a scalar whose bare name is not relocated stays as it is. -/
theorem IsScalar.relocate_eq {t : Ty} (h : IsScalar t)
    (hr : ∀ name, t.bareName? = some name → r.lookup name = none) : t.relocate r = t := by
  have hprimitive {name : String} (hb : name ∈ builtIns) (hnone : r.lookup name = none) :
      (TypeMap.primitive name).relocate r = TypeMap.primitive name := by
    have hsuper : name ≠ "super" := fun he => absurd (he ▸ hb) (by decide)
    rw [TypeMap.primitive, Ty.relocate_path, Path.mapTypes_ofNames]
    exact congrArg Ty.path (@Path.relocateHead_relative_of_none _ 0 _ _ hsuper hnone)
  cases h with
  | primitive hb => exact hprimitive hb (hr _ rfl)
  | list names hb => rw [Ty.relocate_global, hprimitive hb (hr _ rfl)]
  | absolute names => exact congrArg Ty.path (Path.relocate_absolute names)

end SchemaBindings.Code
