import SchemaBindings.Proofs.Package.Assembly

/-!
Where the paths of a package lead. A path is followed from the module that it is written in, through
the steps out of it, the items and the imports of its file and the modules in them, or from the root
of the tree of modules.
-/

namespace SchemaBindings

open Code

namespace Package

/-- What a path can lead to: an item of the module of a file, at its place, or a module of the
tree. -/
inductive Target where
  | item (module : ModuleId) (path : List String) (item : Item)
  | module (segments : List String)

/-- What names lead to from the root of the tree of modules. -/
inductive Stands (p : Package) : List String → Target → Prop
  | item {m : GeneratedModule} {path : List String} {item : Item} (hm : m ∈ p.modules)
      (h : ItemAt m.file.items path item) :
    p.Stands (m.module.segments ++ path) (.item m.module path item)
  | module {m : GeneratedModule} {names behind : List String} (hm : m ∈ p.modules)
      (hn : names ≠ []) (h : names ++ behind = m.module.segments) :
    p.Stands names (.module names)

/-- The words with which a path begins but which name nothing. -/
def pathWords : List String := ["crate", "super"]

/-- What a path leads to from inside the module `m`, in which the names `here` lead to the place of
the path; the modules of the package stand below `root`. -/
inductive Leads (p : Package) (root : Path) (m : GeneratedModule) (here : List String) :
    Path → Target → Prop
  | own {steps : Nat} {name : String} {rest : List String} {item : Item}
      (hs : steps ≤ here.length) (hw : name ∉ pathWords)
      (h : ItemAt m.file.items (here.take (here.length - steps) ++ name :: rest) item) :
    Leads p root m here (.relative steps (name :: rest))
      (.item m.module (here.take (here.length - steps) ++ name :: rest) item)
  | imported {source : Path} {idents : List Ident} {segments : List String} {name : String}
      {rest : List String} {target : Target} (hw : name ∉ pathWords)
      (hu : .use source idents ∈ m.file.items) (hn : ⟨name⟩ ∈ idents)
      (hb : root.Below segments source) (h : p.Stands (segments ++ name :: rest) target) :
    Leads p root m here (.relative here.length (name :: rest)) target
  | absolute {path : Path} {names : List String} {target : Target} (hb : root.Below names path)
      (h : p.Stands names target) : Leads p root m here path target

/-- Something else has the absolute path of the place in a module: an item of another module, or a
module of the tree. -/
def Clash (asyncPrefix : String) (files : List SchemaFile) (module : ModuleId)
    (path : List String) : Prop :=
  (∃ f ∈ files, f.module ≠ module ∧ ∃ other, f.Takes asyncPrefix other ∧
    f.module.segments ++ other = module.segments ++ path) ∨
  ∃ f ∈ files, module.segments ++ path <+: f.module.segments

/-! ## Where each kind of path leads -/

section Leads

variable {p : Package} {root : Path} {m : GeneratedModule} {here : List String} {name : String}
  {rest : List String} {target : Target}

private theorem relative_inj {steps steps' : Nat} {name' : String} {rest' : List String}
    (hw : name ∉ pathWords) (hw' : name' ∉ pathWords)
    (h : Path.relative steps (name :: rest) = .relative steps' (name' :: rest')) :
    steps = steps' ∧ name = name' ∧ rest = rest' := by
  have hnames := congrArg Path.names h
  rw [Path.relative, Path.relative, Path.names_ofNames, Path.names_ofNames] at hnames
  have hbehind := congrArg (List.dropWhile (· == "super")) hnames
  have hs : name ≠ "super" := fun he => hw (he ▸ by decide)
  have hs' : name' ≠ "super" := fun he => hw' (he ▸ by decide)
  rw [Path.dropWhile_steps hs, Path.dropWhile_steps hs'] at hbehind
  obtain ⟨rfl, rfl⟩ := List.cons.inj hbehind
  exact ⟨by simpa using congrArg List.length hnames, rfl, rfl⟩

/-- Only a path that is global or begins with a path keyword is one below the root. -/
theorem not_below_relative (hroot : root.leading = true ∨ root.names.head? = some "crate")
    {names : List String} {steps : Nat} (hw : name ∉ pathWords) :
    ¬ root.Below names (.relative steps (name :: rest)) := by
  intro hb
  have hleading : root.leading ≠ true := hb.leading.symm.trans_ne Bool.false_ne_true
  obtain ⟨_, hcrate⟩ := List.head?_eq_some_iff.mp (hroot.resolve_left hleading)
  have hnames := hb.names
  rw [Path.relative, Path.names_ofNames, hcrate] at hnames
  cases steps with
  | zero => exact hw ((List.cons.inj hnames).1 ▸ by decide)
  | succ steps =>
    rw [List.replicate_succ] at hnames
    exact absurd (List.cons.inj hnames).1 (by decide)

/-- A path below the root leads to what stands there. -/
theorem leads_absolute_iff (hroot : root.leading = true ∨ root.names.head? = some "crate")
    {names : List String} {path : Path} (hb : root.Below names path) :
    Leads p root m here path target ↔ p.Stands names target := by
  refine ⟨fun h => ?_, .absolute hb⟩
  cases h with
  | own _ hw => exact absurd hb (not_below_relative hroot hw)
  | imported hw => exact absurd hb (not_below_relative hroot hw)
  | absolute hb' h => exact hb.unique hb' ▸ h

/-- A name that is imported and means nothing else leads on from where it is imported from. -/
theorem leads_imported_iff (hroot : root.leading = true ∨ root.names.head? = some "crate")
    {segments : List String} (hw : name ∉ pathWords)
    (hnone : ∀ item, ¬ ItemAt m.file.items (name :: rest) item)
    (huse : ∃ source idents, .use source idents ∈ m.file.items ∧ ⟨name⟩ ∈ idents)
    (hsource : ∀ source idents, .use source idents ∈ m.file.items → ⟨name⟩ ∈ idents →
      root.Below segments source) :
    Leads p root m here (.relative here.length (name :: rest)) target ↔
      p.Stands (segments ++ name :: rest) target := by
  constructor
  · generalize hpath : Path.relative here.length (name :: rest) = path
    intro h
    cases h with
    | own hs hw' h =>
      obtain ⟨rfl, rfl, rfl⟩ := relative_inj hw hw' hpath
      simp only [Nat.sub_self, List.take_zero, List.nil_append] at h
      exact absurd h (hnone _)
    | imported hw' hu hn hb h =>
      obtain ⟨-, rfl, rfl⟩ := relative_inj hw hw' hpath
      exact (hsource _ _ hu hn).unique hb ▸ h
    | absolute hb => exact absurd (hpath ▸ hb) (not_below_relative hroot hw)
  · intro h
    obtain ⟨source, idents, hu, hn⟩ := huse
    exact .imported hw hu hn (hsource source idents hu hn) h

/-- A name that is not imported leads to an item of its own module. -/
theorem leads_own_iff (hroot : root.leading = true ∨ root.names.head? = some "crate")
    (hw : name ∉ pathWords)
    (huse : ∀ source idents, .use source idents ∈ m.file.items → ⟨name⟩ ∉ idents) :
    Leads p root m here (.relative here.length (name :: rest)) target ↔
      ∃ item, ItemAt m.file.items (name :: rest) item ∧
        target = .item m.module (name :: rest) item := by
  constructor
  · generalize hpath : Path.relative here.length (name :: rest) = path
    intro h
    cases h with
    | own hs hw' h =>
      obtain ⟨rfl, rfl, rfl⟩ := relative_inj hw hw' hpath
      simp only [Nat.sub_self, List.take_zero, List.nil_append] at h ⊢
      exact ⟨_, h, rfl⟩
    | imported hw' hu hn =>
      obtain ⟨-, rfl, rfl⟩ := relative_inj hw hw' hpath
      exact absurd hn (huse _ _ hu)
    | absolute hb => exact absurd (hpath ▸ hb) (not_below_relative hroot hw)
  · rintro ⟨item, hitem, rfl⟩
    have hplace : ItemAt m.file.items (here.take (here.length - here.length) ++ name :: rest)
        item := by simpa using hitem
    have hleads : Leads p root m here (.relative here.length (name :: rest)) _ :=
      .own (Nat.le_refl _) hw hplace
    simpa using hleads

end Leads

/-! ## What stands where -/

section Stands

variable {g : Generator} {files : List SchemaFile} {s : Stages}
variable {f : SchemaFile} {m : GeneratedModule}

/-- Without an index the items at places are those that mirror the file. -/
theorem Emission.itemAt_iff (e : Emission g s f m) (hi : s.index = []) {path : List String}
    {item : Item} : ItemAt m.file.items path item ↔ ItemAt e.body path item := by
  refine ⟨fun h => (e.itemAt_cases h).resolve_right fun hc => ?_, e.itemAt_of_body⟩
  have hchildren := e.childrenOk
  rw [hi] at hchildren
  rw [← Except.ok.inj hchildren] at hc
  cases hc

/-- The names of the items of a module are those of its file. -/
theorem Emission.takes_iff (e : Emission g s f m) (hi : s.index = []) {path : List String} :
    f.Takes g.settings.asyncPrefix path ↔ ∃ item, ItemAt m.file.items path item := by
  have hreshapes := reshapes_finished e.relocation
  refine (e.mirrored.takes_iff).trans ⟨?_, ?_⟩
  · rintro ⟨item, hitem⟩
    obtain ⟨item', hitem', -⟩ := hreshapes.itemAt_right e.finished hitem
    exact ⟨item', e.itemAt_of_body hitem'⟩
  · rintro ⟨item, hitem⟩
    obtain ⟨item', hitem', -⟩ := hreshapes.itemAt_left e.finished ((e.itemAt_iff hi).mp hitem)
    exact ⟨item', hitem'⟩

/-- There is one item at a place of a module. -/
theorem Emission.unique (e : Emission g s f m) (hi : s.index = [])
    (hd : SymbolTable.Claimed g.settings.asyncPrefix f) {path : List String} {i j : Item}
    (h : ItemAt m.file.items path i) (h' : ItemAt m.file.items path j) : i = j := by
  have hscopes := (reshapes_finished e.relocation).distinctScopes e.finished
    (e.mirrored.distinctScopes hd)
  exact hscopes.unique ((e.itemAt_iff hi).mp h) ((e.itemAt_iff hi).mp h')

/-- An item is the only thing at its absolute path exactly if nothing clashes with it. -/
theorem stands_unique_iff (h : s.Succeed g files) (hn : DistinctNames files)
    (hindex : g.settings.moduleIndex = false) (hf : f ∈ files) (hm : m ∈ s.package.modules)
    (e : Emission g s f m) {path : List String} {item : Item}
    (hitem : ItemAt m.file.items path item) :
    (∀ t, s.package.Stands (f.module.segments ++ path) t → t = .item f.module path item) ↔
      ¬ Clash g.settings.asyncPrefix files f.module path := by
  obtain ⟨hi, -⟩ := h.indexFiles_eq_nil hindex
  have hfinished {m' : GeneratedModule} (hm' : m' ∈ s.package.modules) : m' ∈ s.finished :=
    (h.modules_perm hindex).mem_iff.mp hm'
  constructor
  · rintro hall (⟨f', hf', hne, other, htakes, he⟩ | ⟨f', hf', hprefix⟩)
    · obtain ⟨m', hm', ⟨e'⟩⟩ := h.exists_emission hn hf'
      obtain ⟨item', hitem'⟩ := (e'.takes_iff hi).mp htakes
      have hstands := Stands.item hm' hitem'
      rw [e'.module, he] at hstands
      exact hne (Target.item.inj (hall _ hstands)).1
    · obtain ⟨m', hm', ⟨e'⟩⟩ := h.exists_emission hn hf'
      obtain ⟨behind, hbehind⟩ := hprefix
      have hnonempty : f.module.segments ++ path ≠ [] := by simp [hitem.ne_nil]
      cases hall _ (.module hm' hnonempty (hbehind.trans (congrArg _ e'.module.symm)))
  · intro hclash t ht
    generalize hnames : f.module.segments ++ path = names at ht
    cases ht with
    | @item m' path' item' hm' hitem' =>
      obtain ⟨f', hf', ⟨e'⟩⟩ := h.exists_file hn hindex hm'
      by_cases hmodule : f'.module = f.module
      · have hsame : m' = m := by
          refine h.eq_of_module (hfinished hm') (hfinished hm) ?_
          rw [e'.module, e.module, hmodule]
        subst hsame
        rw [e.module] at hnames
        obtain rfl := List.append_cancel_left hnames
        rw [e.module, e.unique hi (h.describes.claimed f hf) hitem' hitem]
      · rw [e'.module] at hnames
        exact absurd (.inl ⟨f', hf', hmodule, path', (e'.takes_iff hi).mpr ⟨item', hitem'⟩,
          hnames.symm⟩) hclash
    | @module m' _ behind hm' hne hbehind =>
      obtain ⟨f', hf', ⟨e'⟩⟩ := h.exists_file hn hindex hm'
      exact absurd (.inr ⟨f', hf', behind, hnames ▸ hbehind.trans (congrArg _ e'.module)⟩) hclash

end Stands

end Package

end SchemaBindings
