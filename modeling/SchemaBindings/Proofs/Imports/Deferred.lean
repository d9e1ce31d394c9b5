import SchemaBindings.Imports.Injection
import SchemaBindings.Proofs.Code.Relocation

/-!
What becomes of a file when the names of its deferred imports are replaced by full paths: these
begin at the root of the modules, which is plain and no name itself, so one pass replaces them all.
-/

namespace SchemaBindings

open Code

namespace Imports

variable {root : Path} {deferred : List (String × ModuleId)} {r : Relocation}

/-- Every name is put behind the path of its module. -/
theorem relocation_ok (h : relocation root deferred = .ok r) :
    List.Forall₂ (fun e e' => e'.1 = e.1 ∧ e.2.path root = .ok e'.2) deferred r := by
  refine (mapM_ok.mp h).imp fun e e' he => ?_
  obtain ⟨path, hpath, he⟩ := bind_ok.mp he
  cases he
  exact ⟨rfl, hpath⟩

/-- What is found for a name that is relocated is the path of the module that it comes from. -/
theorem lookup_relocation (h : relocation root deferred = .ok r) (name : String) :
    (deferred.lookup name = none ∧ r.lookup name = none) ∨
      ∃ source target, deferred.lookup name = some source ∧ r.lookup name = some target ∧
        source.path root = .ok target := by
  have hall := relocation_ok h
  clear h
  induction hall with
  | nil => exact .inl ⟨rfl, rfl⟩
  | @cons e e' _ _ he _ ih =>
    obtain ⟨hn, hpath⟩ := he
    rw [List.lookup_cons, List.lookup_cons, hn]
    by_cases hname : name = e.1
    · rw [beq_iff_eq.mpr hname]
      exact .inr ⟨e.2, e'.2, rfl, rfl, hpath⟩
    · rw [beq_false_of_ne hname]
      exact ih

theorem names_relocation (h : relocation root deferred = .ok r) :
    r.names = deferred.map (·.1) := by
  have hnames := (relocation_ok h).imp fun _ _ he => he.1.symm
  rw [← List.forall₂_map_right_iff, ← List.forall₂_map_left_iff, List.forall₂_eq_eq_eq] at hnames
  exact hnames.symm

/-- Only names are put behind the root. -/
theorem appendIdents_of_mem_relocation (h : relocation root deferred = .ok r)
    {e : String × Path} (he : e ∈ r) : ∃ idents, e.2 = root.appendIdents idents := by
  obtain ⟨source, -, hsource⟩ := exists_mem_left (relocation_ok h) he
  obtain ⟨idents, -, hpath⟩ := map_ok.mp hsource.2
  exact ⟨idents, hpath.symm⟩

theorem isRooted_relocation (hroot : root.leading = true ∨ root.names.head? = some "crate")
    (hnames : ∀ e ∈ deferred, e.1 ∉ keywords)
    (h : relocation root deferred = .ok r) : r.IsRooted where
  targets e he := by
    obtain ⟨idents, hp⟩ := appendIdents_of_mem_relocation h he
    rw [hp, Path.leading_appendIdents, Path.names_appendIdents]
    refine hroot.imp_right fun hc => ?_
    obtain ⟨rest, hrest⟩ := List.head?_eq_some_iff.mp hc
    rw [hrest]
    rfl
  crate := by
    rw [names_relocation h]
    intro hc
    obtain ⟨e, he, hname⟩ := List.mem_map.mp hc
    exact hnames e he (hname ▸ by decide)

theorem isPlain_relocation (hplain : root.isPlain = true) (h : relocation root deferred = .ok r) :
    r.IsPlain := fun e he => by
  obtain ⟨idents, hp⟩ := appendIdents_of_mem_relocation h he
  exact hp ▸ Path.isPlain_appendIdents hplain idents

/-- What the path of a type becomes, apart from the types in its arguments. -/
inductive Moves (root : Path) (deferred : List (String × ModuleId)) : Path → Path → Prop
  /-- The path of the module takes the place of the steps before a deferred name. -/
  | moved {p source : Path} {head : Segment} {rest : List Segment} {m : ModuleId}
      (hleading : p.leading = false) (hbehind : p.behindSteps = head :: rest)
      (hm : deferred.lookup head.ident.text = some m) (hsource : m.path root = .ok source) :
      Moves root deferred p (.mk source.leading (source.segments ++ head :: rest))
  /-- Any other path stays. -/
  | kept {p : Path} (h : p.beginsWith (deferred.map (·.1)) = false) : Moves root deferred p p

theorem moves_relocateHead (h : relocation root deferred = .ok r) (p : Path) :
    Moves root deferred p (p.relocateHead r) := by
  cases hb : p.beginsWith r.names with
  | false =>
    rw [Path.relocateHead_of_not_beginsWith hb]
    exact .kept (names_relocation h ▸ hb)
  | true =>
    obtain ⟨hleading, head, rest, target, hbehind, htarget⟩ := Path.exists_lookup hb
    rw [Path.relocateHead_of_lookup hleading hbehind htarget]
    rcases lookup_relocation h head.ident.text with ⟨-, hnone⟩ | ⟨m, path, hm, hpath, hok⟩
    · rw [hnone] at htarget
      cases htarget
    · obtain rfl : path = target := Option.some.inj (hpath.symm.trans htarget)
      exact .moved hleading hbehind hm hok

/-- Exactly the paths of types that begin with a deferred name, behind any steps, are changed, at
every depth: each is put behind the path of its module, and the types in the arguments of all paths
are relocated as well. The paths keep their order, and only those in the arguments of steps go away
with them. Apart from the names in such paths the file is as before, and one that has none is not
changed at all. None is left, so that nothing is changed a second time. -/
theorem relocate_deferred (hnames : ∀ e ∈ deferred, e.1 ∉ keywords) (hplain : root.isPlain = true)
    (hroot : root.leading = true ∨ root.names.head? = some "crate")
    (hr : relocation root deferred = .ok r) (f : File) :
    let names := deferred.map (·.1)
    List.Forall₂ (fun p p' => ∃ q, Moves root deferred p q ∧ p' = q.mapTypes (Ty.relocateHead r))
        (f.typePaths names) ((f.relocate r).typePaths []) ∧
      (f.relocate r).mapTypes (Ty.nameless names) = f.mapTypes (Ty.nameless names) ∧
      ((∀ p ∈ f.typePaths [], p.beginsWith names = false) → f.relocate r = f) ∧
      (∀ p ∈ (f.relocate r).typePaths [], p.beginsWith names = false) ∧
      (f.relocate r).relocate r = f.relocate r := by
  intro names
  have hkeys : names = r.names := (names_relocation hr).symm
  have hplain := isPlain_relocation hplain hr
  have hrooted := isRooted_relocation hroot hnames hr
  have hnone : ∀ p ∈ (f.relocate r).typePaths [], p.beginsWith r.names = false := by
    intro p hp
    rw [File.typePaths_relocate hplain] at hp
    obtain ⟨q, -, rfl⟩ := List.mem_map.mp hp
    rw [Path.beginsWith_mapTypes]
    exact Path.not_beginsWith_relocateHead hrooted q
  rw [hkeys]
  refine ⟨?_, File.mapTypes_relocate hplain (Ty.ignoresRelocation_nameless hplain hrooted) f,
    File.relocate_of_not_beginsWith f, hnone, File.relocate_of_not_beginsWith _ hnone⟩
  rw [File.typePaths_relocate hplain, List.forall₂_map_right_iff, List.forall₂_same]
  exact fun p _ => ⟨p.relocateHead r, moves_relocateHead hr p, rfl⟩

/-- A deferred name behind a step, with the same name in a tuple in its arguments, and such names in
the head of an implementation: as the type that it is for and in that of its constant. -/
theorem relocate_deferred_nested :
    let root := Path.ofNames false ["crate"]
    let deferred : List (String × ModuleId) := [("Foo", ⟨["a"]⟩), ("str", ⟨["b"]⟩)]
    let r : Relocation :=
      [("Foo", .ofNames false ["crate", "a"]), ("str", .ofNames false ["crate", "b"])]
    let name (n : String) : Ty := .path (.ofNames false [n])
    let args (t : Ty) : PathArgs := .angle false [.type t] false
    let file (field self text : Ty) : File := ⟨[], [
      .struct [] ⟨"S"⟩ [⟨[], true, ⟨"x"⟩, field⟩],
      .implementation self
        (some { Constant.wireName "p.S" with type := .reference none false text }) []]⟩
    let f := file (.path (.mk false
      [.mk ⟨"super"⟩ .none, .mk ⟨"Foo"⟩ (args (.tuple [name "Foo", name "Bar"] false))]))
      (name "Foo") (name "str")
    (∀ e ∈ deferred, e.1 ∉ keywords) ∧ root.isPlain = true ∧ root.names.head? = some "crate" ∧
      relocation root deferred = .ok r ∧
      f.relocate r = file (.path (.mk false
        [.mk ⟨"crate"⟩ .none, .mk ⟨"a"⟩ .none, .mk ⟨"Foo"⟩ (args (.tuple
          [.path (.ofNames false ["crate", "a", "Foo"]), name "Bar"] false))]))
        (.path (.ofNames false ["crate", "a", "Foo"]))
        (.path (.ofNames false ["crate", "b", "str"])) ∧
      List.Forall₂ (fun p p' => ∃ q, Moves root deferred p q ∧ p' = q.mapTypes (Ty.relocateHead r))
        (f.typePaths ["Foo", "str"]) ((f.relocate r).typePaths []) ∧
      (∀ p ∈ (f.relocate r).typePaths [], p.beginsWith ["Foo", "str"] = false) ∧
      (f.relocate r).relocate r = f.relocate r := by
  intro root deferred r name args file f
  have hnames : ∀ e ∈ deferred, e.1 ∉ keywords := by decide
  have hr : relocation root deferred = .ok r := rfl
  obtain ⟨hpaths, -, -, hnone, hagain⟩ := relocate_deferred hnames rfl (.inr rfl) hr f
  exact ⟨hnames, rfl, rfl, hr, rfl, hpaths, hnone, hagain⟩

end Imports

end SchemaBindings
