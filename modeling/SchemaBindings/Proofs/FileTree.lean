import SchemaBindings.FileTree
import SchemaBindings.Package.Write
import SchemaBindings.Proofs.FilePath

/-!
What making directories, writing a file and moving it do to a tree of files, by what stands at each
location before and afterwards.
-/

namespace SchemaBindings

open FileTree (Location Node)

/-! ## Ways -/

/-- Where a step leads if nothing is in its way. -/
def Component.lead (l : Location) : Component → Location
  | .root => []
  | .current => l
  | .parent => l.dropLast
  | .normal name => l ++ [name]

namespace FileTree

/-- The location at the end of a way. -/
def arrive (l : Location) : List Component → Location
  | [] => l
  | c :: rest => arrive (c.lead l) rest

/-- The locations after each step of a way. -/
def stops (l : Location) : List Component → List Location
  | [] => []
  | c :: rest => c.lead l :: stops (c.lead l) rest

theorem arrive_append (l : Location) (cs cs' : List Component) :
    arrive l (cs ++ cs') = arrive (arrive l cs) cs' := by
  induction cs generalizing l with
  | nil => rfl
  | cons c cs ih => exact ih (c.lead l)

theorem stops_append (l : Location) (cs cs' : List Component) :
    stops l (cs ++ cs') = stops l cs ++ stops (arrive l cs) cs' := by
  induction cs generalizing l with
  | nil => rfl
  | cons c cs ih => exact congrArg (c.lead l :: ·) (ih (c.lead l))

theorem arrive_names (l : Location) (names : List String) :
    arrive l (names.map .normal) = l ++ names := by
  induction names generalizing l with
  | nil => exact (List.append_nil l).symm
  | cons name names ih =>
    rw [List.map_cons, arrive, ih, Component.lead, List.append_assoc]
    rfl

/-- A way down stops at the locations between its ends. -/
theorem mem_stops_names {l place : Location} {names : List String} :
    place ∈ stops l (names.map .normal) ↔
      ∃ front, front ≠ [] ∧ front <+: names ∧ place = l ++ front := by
  induction names generalizing l with
  | nil =>
    constructor
    · intro h
      cases h
    · rintro ⟨front, hne, hprefix, -⟩
      exact absurd (List.prefix_nil.mp hprefix) hne
  | cons name names ih =>
    rw [List.map_cons, stops, List.mem_cons, ih, Component.lead]
    constructor
    · rintro (rfl | ⟨front, -, hprefix, rfl⟩)
      · exact ⟨[name], by simp, by simp, rfl⟩
      · exact ⟨name :: front, by simp, by simpa using hprefix, by simp⟩
    · rintro ⟨front, hne, hprefix, rfl⟩
      obtain ⟨first, rest, rfl⟩ := List.exists_cons_of_ne_nil hne
      obtain ⟨rfl, hrest⟩ := List.cons_prefix_cons.mp hprefix
      by_cases hnil : rest = []
      · exact .inl (by rw [hnil])
      · exact .inr ⟨rest, hnil, hrest, by simp⟩

/-- A way that never goes up stops at the locations that lead to its end. -/
theorem prefix_of_mem_stops {l place : Location} {cs : List Component}
    (h : ∀ c ∈ cs, c ≠ .root ∧ c ≠ .parent) (hplace : place ∈ stops l cs) :
    place <+: arrive l cs := by
  have reach {l : Location} {cs : List Component} (h : ∀ c ∈ cs, c ≠ .root ∧ c ≠ .parent) :
      l <+: arrive l cs := by
    induction cs generalizing l with
    | nil => exact List.prefix_rfl
    | cons c cs ih =>
      obtain ⟨hc, hcs⟩ := List.forall_mem_cons.mp h
      refine List.IsPrefix.trans ?_ (ih hcs)
      cases c with
      | root => exact absurd rfl hc.1
      | current => exact List.prefix_rfl
      | parent => exact absurd rfl hc.2
      | normal name => exact List.prefix_append _ _
  induction cs generalizing l with
  | nil => cases hplace
  | cons c cs ih =>
    have hcs := (List.forall_mem_cons.mp h).2
    rcases List.mem_cons.mp hplace with rfl | hplace
    · exact reach hcs
    · exact ih hcs hplace

variable {t : FileTree} {l : Location}

theorem step?_of_isDirectory (hl : t.isDirectory l = true) (c : Component) :
    t.step? l c = some (c.lead l) := by
  cases c with
  | root => rfl
  | current => rfl
  | parent => rw [step?, if_pos hl]; rfl
  | normal name => rw [step?, if_pos hl]; rfl

theorem isDirectory_iff : t.isDirectory l = true ↔ t.get? l = some .directory := by
  rw [isDirectory, beq_iff_eq]

theorem arrive_eq_or_mem_stops (l : Location) (cs : List Component) :
    arrive l cs = l ∨ arrive l cs ∈ stops l cs := by
  induction cs generalizing l with
  | nil => exact .inl rfl
  | cons c cs ih =>
    rcases ih (c.lead l) with heq | hmem
    · exact .inr (List.mem_cons.mpr (.inl heq))
    · exact .inr (List.mem_cons_of_mem _ hmem)

/-- A way through directories can be gone. -/
theorem foldlM_step? (hl : t.isDirectory l = true) {cs : List Component}
    (h : ∀ place ∈ stops l cs, t.isDirectory place = true) :
    cs.foldlM t.step? l = some (arrive l cs) := by
  induction cs generalizing l with
  | nil => rfl
  | cons c cs ih =>
    rw [stops, List.forall_mem_cons] at h
    rw [List.foldlM_cons, step?_of_isDirectory hl]
    exact ih h.1 h.2

theorem enter_eq (hl : t.isDirectory l = true) (c : Component)
    (h : ∀ text, t.get? (c.lead l) ≠ some (.file text)) :
    ∃ t', t.enter l c = some (c.lead l, t') ∧ ∀ place,
      t'.get? place = if place = c.lead l then some .directory else t.get? place := by
  unfold enter
  rw [step?_of_isDirectory hl]
  cases hget : t.get? (c.lead l) with
  | none =>
    have hne : c.lead l ≠ [] := by
      intro hnil
      rw [hnil] at hget
      cases hget
    refine ⟨t.put (c.lead l) .directory, by simp [hget], fun place => ?_⟩
    rw [get?_put]
    by_cases hplace : place = c.lead l
    · rw [if_pos ⟨hplace, hplace ▸ hne⟩, if_pos hplace]
    · rw [if_neg fun h => hplace h.1, if_neg hplace]
  | some n =>
    cases n with
    | file text => exact absurd hget (h text)
    | directory =>
      refine ⟨t, by simp [hget], fun place => ?_⟩
      split
      · next hplace => rw [hplace, hget]
      · rfl

/-- Where no file is in the way, all its stops become directories and nothing else changes. -/
theorem makeWay_eq (hl : t.isDirectory l = true) {cs : List Component}
    (h : ∀ place ∈ stops l cs, ∀ text, t.get? place ≠ some (.file text)) :
    ∃ t', t.makeWay l cs = (true, t') ∧ ∀ place,
      t'.get? place = if place ∈ stops l cs then some .directory else t.get? place := by
  induction cs generalizing t l with
  | nil => exact ⟨t, rfl, fun place => rfl⟩
  | cons c cs ih =>
    rw [stops, List.forall_mem_cons] at h
    obtain ⟨hfirst, hrest⟩ := h
    obtain ⟨t₁, henter, hget₁⟩ := enter_eq hl c hfirst
    have hdirectory : t₁.isDirectory (c.lead l) = true := by
      rw [isDirectory_iff, hget₁, if_pos rfl]
    have hfree : ∀ place ∈ stops (c.lead l) cs, ∀ text, t₁.get? place ≠ some (.file text) := by
      intro place hplace text
      rw [hget₁]
      split
      · exact fun heq => nomatch heq
      · exact hrest place hplace text
    obtain ⟨t₂, hway, hget₂⟩ := ih hdirectory hfree
    refine ⟨t₂, by rw [makeWay, henter]; exact hway, fun place => ?_⟩
    rw [hget₂, hget₁, stops]
    by_cases hfirst : place = c.lead l <;> by_cases hlater : place ∈ stops (c.lead l) cs <;>
      simp [hfirst, hlater]

/-- The location that a path names. -/
def place (path : String) : Location :=
  arrive [] (FilePath.components path)

/-- The locations of the directories around what a path names. -/
def around (path : String) : List Location :=
  stops [] (FilePath.components (FilePath.parent path))

/-- So do paths that never go up. -/
theorem prefix_place {path : String} (h : Component.parent ∉ FilePath.components path)
    (hl : l ∈ stops [] (FilePath.components path)) : l <+: place path := by
  have hroot := FilePath.root_notMem_tail path
  rw [place]
  cases hcs : FilePath.components path with
  | nil =>
    rw [hcs] at hl
    cases hl
  | cons c cs =>
    rw [hcs] at h hl hroot
    have hrest : ∀ c ∈ cs, c ≠ .root ∧ c ≠ .parent := fun c hc =>
      ⟨fun heq => hroot (heq ▸ hc), fun heq => h (heq ▸ List.mem_cons_of_mem _ hc)⟩
    by_cases hc : c = .root
    · subst hc
      rcases List.mem_cons.mp hl with rfl | hl
      · exact List.nil_prefix
      · have hprefix : l <+: arrive [] cs := prefix_of_mem_stops hrest hl
        exact hprefix
    · refine prefix_of_mem_stops (List.forall_mem_cons.mpr ⟨⟨hc, ?_⟩, hrest⟩) hl
      rintro rfl
      exact h List.mem_cons_self

end FileTree

open FileTree FilePath

variable {t t' : FileTree} {path name : String} {before : List String}

namespace FilePath.EndsWith

theorem around_eq (h : EndsWith path before name) : around path = stops [] (steps before) := by
  rw [around, h.components_parent]

theorem place_eq (h : EndsWith path before name) :
    place path = arrive [] (steps before) ++ [name] := by
  rw [place, h.components_eq, arrive_append]
  rfl

/-- Inside directories a path leads to the location that it names. -/
theorem locate?_eq (h : EndsWith path before name)
    (haround : ∀ l ∈ around path, t.get? l = some .directory) :
    t.locate? path = some (place path) := by
  rw [h.around_eq] at haround
  have hroot : t.isDirectory [] = true := isDirectory_iff.mpr rfl
  have hgone := foldlM_step? hroot fun l hl => isDirectory_iff.mpr (haround l hl)
  have hend : t.isDirectory (arrive [] (steps before)) = true := by
    rcases arrive_eq_or_mem_stops [] (steps before) with heq | hmem
    · rw [heq, hroot]
    · exact isDirectory_iff.mpr (haround _ hmem)
  rw [locate?, h.components_eq, List.foldlM_append, hgone]
  simp [step?_of_isDirectory hend, h.endsInDirectory_eq, h.place_eq, Component.lead]

end FilePath.EndsWith

/-! ## Running on a tree -/

variable {α β : Type}

/-- The action succeeds on a tree with an answer and leaves another tree. -/
def Runs (x : ExceptT Failure (StateM FileTree) α) (t : FileTree) (a : α) (t' : FileTree) : Prop :=
  x.run.run t = (.ok a, t')

theorem Runs.pure (a : α) (t : FileTree) :
    Runs (Pure.pure a : ExceptT Failure (StateM FileTree) α) t a t := rfl

theorem Runs.bind {x : ExceptT Failure (StateM FileTree) α}
    {f : α → ExceptT Failure (StateM FileTree) β} {a : α} {b : β} {t'' : FileTree}
    (hx : Runs x t a t') (hf : Runs (f a) t' b t'') : Runs (x >>= f) t b t'' := by
  have hx : x.run.run t = (.ok a, t') := hx
  rw [Runs, ExceptT.run_bind, StateT.run_bind, hx]
  exact hf

theorem Runs.orUnwritable (path : String) {done : StateM FileTree Bool}
    (h : done.run t = (true, t')) : Runs (orUnwritable path done) t () t' := by
  have hdone : Runs (liftM done : ExceptT Failure (StateM FileTree) Bool) t true t' := by
    rw [Runs, ExceptT.run_liftM, StateT.run_map, h]
    rfl
  exact hdone.bind (.pure () t')

theorem run_makeDirectories (path : String) (t : FileTree) :
    (FileSystem.makeDirectories path : StateM FileTree Bool).run t =
      t.makeWay [] (components path) := rfl

theorem run_write {text : String} (h : t.write? path text = some t') :
    (FileSystem.write path text : StateM FileTree Bool).run t = (true, t') := by
  change FileTree.change (·.write? path text) t = (true, t')
  rw [FileTree.change, h]

theorem run_rename {source : String} (h : t.rename? source path = some t') :
    (FileSystem.rename source path : StateM FileTree Bool).run t = (true, t') := by
  change FileTree.change (·.rename? source path) t = (true, t')
  rw [FileTree.change, h]

/-! ## Writing one file -/

/-- The file of a path can be written, with nothing in the way to it or to its temporary path. -/
structure FileTree.Writable (t : FileTree) (path : String) : Prop where
  around : ∀ l ∈ around path, ∀ text, t.get? l ≠ some (.file text)
  target : t.get? (place path) ≠ some .directory
  temporary : t.get? (place (temporaryPath path)) = none
  apart : place path ∉ FileTree.around path ∧ place (temporaryPath path) ∉ FileTree.around path

/-- A path ends with a name that a temporary path can be made from. -/
structure FilePath.IsTarget (path : String) (before : List String) (name : String) : Prop where
  endsWith : EndsWith path before name
  temporary : EndsWith (temporaryPath path) before ((splitName name).1 ++ "." ++ "tmp")
  other : (splitName name).1 ++ "." ++ "tmp" ≠ name

namespace FilePath.IsTarget

theorem around_temporary (h : IsTarget path before name) :
    around (temporaryPath path) = around path := by
  rw [h.temporary.around_eq, h.endsWith.around_eq]

theorem place_ne_nil (h : IsTarget path before name) : place path ≠ [] := by
  rw [h.endsWith.place_eq]
  exact List.append_ne_nil_of_right_ne_nil _ (by simp)

theorem place_temporary_ne_nil (h : IsTarget path before name) :
    place (temporaryPath path) ≠ [] := by
  rw [h.temporary.place_eq]
  exact List.append_ne_nil_of_right_ne_nil _ (by simp)

theorem place_temporary_ne (h : IsTarget path before name) :
    place (temporaryPath path) ≠ place path := by
  rw [h.temporary.place_eq, h.endsWith.place_eq]
  intro heq
  exact h.other (List.singleton_inj.mp (List.append_cancel_left heq))

end FilePath.IsTarget

/-- A text is written beside its place. -/
theorem write?_eq (h : IsTarget path before name)
    (haround : ∀ l ∈ around path, t.get? l = some .directory)
    (hnone : t.get? (place (temporaryPath path)) = none) (text : String) :
    ∃ t', t.write? (temporaryPath path) text = some t' ∧ ∀ l, t'.get? l =
      if l = place (temporaryPath path) then some (.file text) else t.get? l := by
  refine ⟨t.put (place (temporaryPath path)) (.file text), ?_, fun l => ?_⟩
  · have hlocate : t.locate? (temporaryPath path) = some (place (temporaryPath path)) :=
      h.temporary.locate?_eq fun l hl => haround l (h.around_temporary ▸ hl)
    have hfree : ¬ t.isDirectory (place (temporaryPath path)) = true := by
      rw [isDirectory_iff, hnone]
      exact fun heq => nomatch heq
    rw [FileTree.write?, hlocate, Option.bind_eq_bind, Option.bind_some, if_neg hfree]
  · rw [get?_put]
    by_cases hl : l = place (temporaryPath path)
    · rw [if_pos ⟨hl, hl ▸ h.place_temporary_ne_nil⟩, if_pos hl]
    · rw [if_neg fun h => hl h.1, if_neg hl]

/-- And then it is moved there. -/
theorem rename?_eq (h : IsTarget path before name) {text : String}
    (haround : ∀ l ∈ around path, t.get? l = some .directory)
    (htemporary : t.get? (place (temporaryPath path)) = some (.file text))
    (htarget : t.get? (place path) ≠ some .directory) :
    ∃ t', t.rename? (temporaryPath path) path = some t' ∧ ∀ l, t'.get? l =
      if l = place path then some (.file text)
      else if l = place (temporaryPath path) then none else t.get? l := by
  refine ⟨(t.erase (place (temporaryPath path))).put (place path) (.file text), ?_, fun l => ?_⟩
  · have hlocate : t.locate? (temporaryPath path) = some (place (temporaryPath path)) :=
      h.temporary.locate?_eq fun l hl => haround l (h.around_temporary ▸ hl)
    have hfree : ¬ t.isDirectory (place path) = true := by
      rwa [isDirectory_iff]
    rw [FileTree.rename?, hlocate, h.endsWith.locate?_eq haround]
    simp [htemporary, hfree]
  · rw [get?_put, get?_erase]
    by_cases hl : l = place path
    · rw [if_pos ⟨hl, hl ▸ h.place_ne_nil⟩, if_pos hl]
    · rw [if_neg fun h => hl h.1, if_neg hl]
      by_cases htmp : l = place (temporaryPath path)
      · rw [if_pos ⟨htmp, htmp ▸ h.place_temporary_ne_nil⟩, if_pos htmp]
      · rw [if_neg fun h => htmp h.1, if_neg htmp]

/-- Its directories are made unless it has none, and then it is written and moved. -/
theorem writeWhole_of_steps {text : String} {t₁ t₂ t₃ : FileTree}
    (hway : t.makeWay [] (components (parent path)) = (true, t₁))
    (hwrite : t₁.write? (temporaryPath path) text = some t₂)
    (hrename : t₂.rename? (temporaryPath path) path = some t₃) :
    Runs (writeWhole path text) t () t₃ := by
  have hwritten : Runs (orUnwritable (temporaryPath path)
      (FileSystem.write (temporaryPath path) text)) t₁ () t₂ := .orUnwritable _ (run_write hwrite)
  have hmoved : Runs (orUnwritable path (FileSystem.rename (temporaryPath path) path)) t₂ () t₃ :=
    .orUnwritable _ (run_rename hrename)
  unfold writeWhole
  dsimp only
  by_cases hempty : (parent path).isEmpty = true
  · rw [if_pos hempty]
    rw [String.isEmpty_iff.mp hempty] at hway
    have heq : t = t₁ := congrArg Prod.snd hway
    rw [heq]
    exact hwritten.bind hmoved
  · have hmade : Runs (orUnwritable (parent path) (FileSystem.makeDirectories (parent path)))
        t () t₁ := .orUnwritable _ ((run_makeDirectories _ t).trans hway)
    rw [if_neg hempty]
    exact hmade.bind (hwritten.bind hmoved)

/-- Writing a file makes the directories around it, and nothing else changes. -/
theorem writeWhole_runs (h : IsTarget path before name) (hw : t.Writable path) (text : String) :
    ∃ t', Runs (writeWhole path text) t () t' ∧ ∀ l, t'.get? l =
      if l = place path then some (.file text)
      else if l ∈ around path then some .directory else t.get? l := by
  obtain ⟨t₁, hway, hget₁⟩ := makeWay_eq (isDirectory_iff.mpr t.get?_nil) hw.around
  have haround₁ : ∀ l ∈ around path, t₁.get? l = some .directory := by
    intro l hl
    rw [hget₁]
    exact if_pos hl
  have hother₁ : ∀ l ∉ around path, t₁.get? l = t.get? l := by
    intro l hl
    rw [hget₁]
    exact if_neg hl
  obtain ⟨t₂, hwrite, hget₂⟩ :=
    write?_eq h haround₁ ((hother₁ _ hw.apart.2).trans hw.temporary) text
  have hother₂ : ∀ l ≠ place (temporaryPath path), t₂.get? l = t₁.get? l := by
    intro l hl
    rw [hget₂, if_neg hl]
  have hbeside : ∀ l ∈ around path, l ≠ place (temporaryPath path) := by
    rintro l hl rfl
    exact hw.apart.2 hl
  obtain ⟨t₃, hrename, hget₃⟩ : ∃ t₃, t₂.rename? (temporaryPath path) path = some t₃ ∧
      ∀ l, t₃.get? l = if l = place path then some (.file text)
        else if l = place (temporaryPath path) then none else t₂.get? l := by
    refine rename?_eq h (fun l hl => (hother₂ l (hbeside l hl)).trans (haround₁ l hl)) ?_ ?_
    · rw [hget₂, if_pos rfl]
    · rw [hother₂ _ h.place_temporary_ne.symm, hother₁ _ hw.apart.1]
      exact hw.target
  refine ⟨t₃, writeWhole_of_steps hway hwrite hrename, fun l => ?_⟩
  rw [hget₃]
  by_cases hplace : l = place path
  · rw [if_pos hplace, if_pos hplace]
  rw [if_neg hplace, if_neg hplace]
  by_cases htemporary : l = place (temporaryPath path)
  · subst htemporary
    rw [if_pos rfl, if_neg hw.apart.2, hw.temporary]
  · rw [if_neg htemporary, hother₂ l htemporary]
    exact hget₁ l

/-! ## Writing several files -/

/-- Paths of files none of which is a directory around another, nor temporarily becomes one. -/
structure FilePath.Independent (paths : List String) : Prop where
  target : ∀ path ∈ paths, ∃ before name, IsTarget path before name
  places : paths.Pairwise fun path path' => place path ≠ place path'
  apart : ∀ path ∈ paths, ∀ path' ∈ paths, place path ∉ around path' ∧
    place (temporaryPath path) ∉ around path' ∧ place (temporaryPath path) ≠ place path'

/-- The second tree is the first one with exactly the given files overwritten, inside the
directories that they need. -/
structure FileTree.Overwrites (files : List (String × String)) (t t' : FileTree) : Prop where
  target : ∀ f ∈ files, t'.get? (place f.1) = some (.file f.2)
  around : ∀ f ∈ files, ∀ l ∈ around f.1, t'.get? l = some .directory
  other : ∀ l, (∀ f ∈ files, l ≠ place f.1 ∧ l ∉ FileTree.around f.1) → t'.get? l = t.get? l

/-- Writes files in order and answers with their paths. -/
def writeAll (files : List (String × String)) : ExceptT Failure (StateM FileTree) (List String) :=
  files.mapM fun f => do
    writeWhole f.1 f.2
    return f.1

namespace FilePath.Independent

variable {f : String × String} {files : List (String × String)}

theorem tail (h : Independent ((f :: files).map (·.1))) : Independent (files.map (·.1)) where
  target path hpath := h.target path (List.mem_cons_of_mem _ hpath)
  places := (List.pairwise_cons.mp h.places).2
  apart path hpath path' hpath' :=
    h.apart path (List.mem_cons_of_mem _ hpath) path' (List.mem_cons_of_mem _ hpath')

/-- What can be written before another file is written can be written afterwards. -/
theorem writable (h : Independent ((f :: files).map (·.1)))
    (hget : ∀ l, t'.get? l = if l = place f.1 then some (.file f.2)
      else if l ∈ around f.1 then some .directory else t.get? l)
    {f' : String × String} (hf' : f' ∈ files) (hw : t.Writable f'.1) : t'.Writable f'.1 := by
  have hmem : f.1 ∈ (f :: files).map (·.1) := List.mem_cons_self
  have hmem' : f'.1 ∈ (f :: files).map (·.1) :=
    List.mem_cons_of_mem _ (List.mem_map_of_mem (f := (·.1)) hf')
  have hplace : place f'.1 ≠ place f.1 :=
    ((List.pairwise_cons.mp h.places).1 f'.1 (List.mem_map_of_mem (f := (·.1)) hf')).symm
  obtain ⟨haround, htemporary, hbeside⟩ := h.apart f'.1 hmem' f.1 hmem
  refine ⟨?_, ?_, ?_, hw.apart⟩
  · intro l hl text
    have hne : l ≠ place f.1 := by
      rintro rfl
      exact (h.apart f.1 hmem f'.1 hmem').1 hl
    rw [hget, if_neg hne]
    split
    · exact fun heq => nomatch heq
    · exact hw.around l hl text
  · rw [hget, if_neg hplace, if_neg haround]
    exact hw.target
  · rw [hget, if_neg hbeside, if_neg htemporary, hw.temporary]

end FilePath.Independent

/-- One file and then the others are overwritten. -/
theorem FilePath.Independent.overwrites {f : String × String} {files : List (String × String)}
    {t₁ t₂ : FileTree} (h : Independent ((f :: files).map (·.1)))
    (hget : ∀ l, t₁.get? l = if l = place f.1 then some (.file f.2)
      else if l ∈ around f.1 then some .directory else t.get? l)
    (hrest : t₁.Overwrites files t₂) : t.Overwrites (f :: files) t₂ := by
  have hmem : f.1 ∈ (f :: files).map (·.1) := List.mem_cons_self
  have hmem' : ∀ f' ∈ files, f'.1 ∈ (f :: files).map (·.1) := by
    intro f' hf'
    exact List.mem_cons_of_mem _ (List.mem_map_of_mem (f := (·.1)) hf')
  refine ⟨?_, ?_, ?_⟩
  · rw [List.forall_mem_cons]
    refine ⟨?_, hrest.target⟩
    rw [hrest.other, hget, if_pos rfl]
    intro f' hf'
    exact ⟨(List.pairwise_cons.mp h.places).1 f'.1 (List.mem_map_of_mem (f := (·.1)) hf'),
      (h.apart f.1 hmem f'.1 (hmem' f' hf')).1⟩
  · rw [List.forall_mem_cons]
    refine ⟨fun l hl => ?_, hrest.around⟩
    by_cases hlater : ∃ f' ∈ files, l ∈ around f'.1
    · obtain ⟨f', hf', hl'⟩ := hlater
      exact hrest.around f' hf' l hl'
    · have hne : ∀ f' ∈ f :: files, l ≠ place f'.1 := by
        rintro f' hf' rfl
        exact (h.apart f'.1 (List.mem_map_of_mem (f := (·.1)) hf') f.1 hmem).1 hl
      rw [hrest.other, hget, if_neg (hne f List.mem_cons_self), if_pos hl]
      intro f' hf'
      exact ⟨hne f' (List.mem_cons_of_mem _ hf'), fun hl' => hlater ⟨f', hf', hl'⟩⟩
  · intro l hl
    obtain ⟨⟨hplace, haround⟩, hothers⟩ := List.forall_mem_cons.mp hl
    rw [hrest.other l hothers, hget, if_neg hplace, if_neg haround]

/-- Independent files are all written. -/
theorem writeAll_runs {files : List (String × String)} (h : Independent (files.map (·.1)))
    (hw : ∀ f ∈ files, t.Writable f.1) :
    ∃ t', Runs (writeAll files) t (files.map (·.1)) t' ∧ t.Overwrites files t' := by
  induction files generalizing t with
  | nil => exact ⟨t, .pure [] t, nofun, nofun, fun l _ => rfl⟩
  | cons f files ih =>
    obtain ⟨before, name, htarget⟩ := h.target f.1 List.mem_cons_self
    obtain ⟨t₁, hfirst, hget₁⟩ := writeWhole_runs htarget (hw f List.mem_cons_self) f.2
    obtain ⟨t₂, hrest, hover⟩ := ih h.tail fun f' hf' =>
      h.writable hget₁ hf' (hw f' (List.mem_cons_of_mem _ hf'))
    refine ⟨t₂, ?_, h.overwrites hget₁ hover⟩
    rw [writeAll, List.mapM_cons]
    exact (hfirst.bind (.pure f.1 t₁)).bind (hrest.bind (.pure _ t₂))

namespace FileTree.Overwrites

variable {files : List (String × String)}

/-- No temporary file is left. -/
theorem temporary (hover : t.Overwrites files t') (h : Independent (files.map (·.1)))
    (hw : ∀ f ∈ files, t.Writable f.1) :
    ∀ f ∈ files, t'.get? (place (temporaryPath f.1)) = none := by
  intro f hf
  rw [hover.other, (hw f hf).temporary]
  intro f' hf'
  have hapart := (h.apart f.1 (List.mem_map_of_mem (f := (·.1)) hf) f'.1
    (List.mem_map_of_mem (f := (·.1)) hf')).2
  exact ⟨hapart.2, hapart.1⟩

/-- Files that were written can be written again. -/
theorem writable (hover : t.Overwrites files t') (h : Independent (files.map (·.1)))
    (hw : ∀ f ∈ files, t.Writable f.1) : ∀ f ∈ files, t'.Writable f.1 := by
  intro f hf
  refine ⟨fun l hl text => ?_, ?_, hover.temporary h hw f hf, (hw f hf).apart⟩
  · rw [hover.around f hf l hl]
    exact fun heq => nomatch heq
  · rw [hover.target f hf]
    exact fun heq => nomatch heq

/-- Overwriting again with the same texts changes nothing. -/
theorem again {t'' : FileTree} (hover : t.Overwrites files t') (hagain : t'.Overwrites files t'')
    (l : Location) : t''.get? l = t'.get? l := by
  by_cases htarget : ∃ f ∈ files, l = place f.1
  · obtain ⟨f, hf, rfl⟩ := htarget
    rw [hagain.target f hf, hover.target f hf]
  by_cases haround : ∃ f ∈ files, l ∈ FileTree.around f.1
  · obtain ⟨f, hf, hl⟩ := haround
    rw [hagain.around f hf l hl, hover.around f hf l hl]
  · refine hagain.other l fun f hf => ⟨?_, ?_⟩
    · exact fun hl => htarget ⟨f, hf, hl⟩
    · exact fun hl => haround ⟨f, hf, hl⟩

end FileTree.Overwrites

end SchemaBindings
