import SchemaBindings.Code.Tree.Relocation
import SchemaBindings.ModuleId
import SchemaBindings.Proofs.Outcome

/-!
The names of paths, below a root or relative to a module, and what relocation makes of them.
-/

namespace SchemaBindings.Code

/-- The names that a path consists of, without their arguments. -/
def Path.names (p : Path) : List String :=
  p.segments.map (·.ident.text)

/-- The path consists of those of the root and of the given names behind it. Arguments can stand in
the part of the root only. -/
structure Path.Below (root : Path) (names : List String) (p : Path) : Prop where
  leading : p.leading = root.leading
  names : p.names = root.names ++ names
  plain : ∀ s ∈ p.segments.drop root.segments.length, s.isPlain = true

theorem Ident.text_of_ofName {name : String} {i : Ident} (h : Ident.ofName name = .ok i) :
    i.text = name := by
  unfold Ident.ofName at h
  split at h
  · next i' hi =>
    cases h
    unfold Ident.ofText? at hi
    grind
  · cases h

theorem Ident.texts_of_mapM {names : List String} {idents : List Ident}
    (h : names.mapM Ident.ofName = .ok idents) : idents.map (·.text) = names := by
  have hall := mapM_ok.mp h
  clear h
  induction hall with
  | nil => rfl
  | cons hi _ ih => rw [List.map_cons, ih, Ident.text_of_ofName hi]

namespace Path

variable {root p : Path} {names names' : List String}

theorem names_appendIdents (p : Path) (idents : List Ident) :
    (p.appendIdents idents).names = p.names ++ idents.map (·.text) := by
  simp [appendIdents, Path.names, segments, Segment.ident, Function.comp_def]

theorem leading_appendIdents (p : Path) (idents : List Ident) :
    (p.appendIdents idents).leading = p.leading :=
  rfl

theorem appendIdents_appendIdents (p : Path) (front behind : List Ident) :
    (p.appendIdents front).appendIdents behind = p.appendIdents (front ++ behind) := by
  simp [appendIdents, segments, leading]

/-- What stands behind a root does not depend on how the path is read. -/
theorem Below.unique (h : root.Below names p) (h' : root.Below names' p) : names = names' :=
  List.append_cancel_left (h.names.symm.trans h'.names)

/-- The root may be one with other arguments. -/
theorem below_appendIdents {root' : Path} (hl : root'.leading = root.leading)
    (hn : root'.names = root.names) (idents : List Ident) :
    root.Below (idents.map (·.text)) (root'.appendIdents idents) where
  leading := hl
  names := by rw [names_appendIdents, hn]
  plain := by
    have hlength : root.segments.length = root'.segments.length := by
      simpa [Path.names] using congrArg List.length hn.symm
    rw [hlength, appendIdents, segments, List.drop_left]
    simp [Segment.isPlain]

theorem below_of_modulePath {m : ModuleId} (h : m.path root = .ok p) :
    root.Below m.segments p := by
  obtain ⟨idents, hi, rfl⟩ := map_ok.mp h
  exact Ident.texts_of_mapM hi ▸ below_appendIdents rfl rfl idents

theorem below_appendNames {m : ModuleId} (h : m.path root = .ok p) (names : List String) :
    root.Below (m.segments ++ names) (p.appendNames names) := by
  obtain ⟨idents, hi, rfl⟩ := map_ok.mp h
  have hb : root.Below ((idents ++ names.map Ident.mk).map (·.text))
      (root.appendIdents (idents ++ names.map Ident.mk)) := below_appendIdents rfl rfl _
  rw [← appendIdents_appendIdents, List.map_append, Ident.texts_of_mapM hi, List.map_map] at hb
  simpa [appendNames, Function.comp_def] using hb

end Path

/-! ## Changing types -/

theorem mapSegments_eq (f : Ty → Ty) (segments : List Segment) :
    mapSegments f segments = segments.map (·.mapTypes f) := by
  induction segments with
  | nil => rfl
  | cons s rest ih => exact congrArg (s.mapTypes f :: ·) ih

theorem Segment.ident_mapTypes (f : Ty → Ty) (s : Segment) : (s.mapTypes f).ident = s.ident := by
  cases s
  rfl

/-- A name without arguments has no types to change. -/
theorem Segment.mapTypes_plain (f : Ty → Ty) (ident : Ident) :
    (mk ident .none).mapTypes f = .mk ident .none :=
  rfl

namespace Path

variable {f : Ty → Ty}

theorem mapTypes_mk (leading : Bool) (segments : List Segment) :
    (mk leading segments).mapTypes f = .mk leading (segments.map (·.mapTypes f)) :=
  congrArg (mk leading) (mapSegments_eq f segments)

theorem leading_mapTypes (p : Path) : (p.mapTypes f).leading = p.leading := by
  cases p
  rfl

theorem names_mapTypes (p : Path) : (p.mapTypes f).names = p.names := by
  cases p
  simp [mapTypes_mk, names, segments, Segment.ident_mapTypes]

theorem mapTypes_appendIdents (p : Path) (idents : List Ident) :
    (p.appendIdents idents).mapTypes f = (p.mapTypes f).appendIdents idents := by
  cases p
  simp [mapTypes_mk, appendIdents, segments, leading, Segment.mapTypes_plain, Function.comp_def]

theorem mapTypes_ofNames (leading : Bool) (names : List String) :
    (ofNames leading names).mapTypes f = ofNames leading names := by
  simp [ofNames, mapTypes_mk, Segment.mapTypes_plain, Function.comp_def]

end Path

/-! ## Relocation -/

variable {r : Relocation}

theorem Ty.relocate_path (p : Path) :
    (Ty.path p).relocate r = .path ((p.mapTypes (Ty.relocateHead r)).relocateHead r) :=
  rfl

/-- Only the argument of a global type is relocated. -/
theorem Ty.relocate_global (names : List String) (t : Ty) :
    (Ty.global names t).relocate r = .global names (t.relocate r) := by
  have hpath := Path.mapTypes_ofNames true names (f := Ty.relocateHead r)
  exact congrArg (fun p => Ty.applied (p.relocateHead r) [t.relocate r]) hpath

theorem Path.relocateHead_of_leading {p : Path} (h : p.leading = true) : p.relocateHead r = p := by
  rw [relocateHead, if_pos h]

/-- The path that steps out of so many modules before its names. -/
def Path.relative (steps : Nat) (names : List String) : Path :=
  .ofNames false (List.replicate steps "super" ++ names)

namespace Path

variable {p : Path} {steps : Nat} {name : String} {rest : List String}

private theorem dropWhile_segments (p : Path) :
    (p.segments.dropWhile (·.ident.text == "super")).map (·.ident.text) =
      p.names.dropWhile (· == "super") := by
  rw [names, List.dropWhile_map]
  rfl

/-- A path stays if its first name is not relocated. -/
theorem relocateHead_of_lookup_eq_none
    (hp : p.names.dropWhile (· == "super") = name :: rest) (h : r.lookup name = none) :
    p.relocateHead r = p := by
  rw [← dropWhile_segments] at hp
  obtain ⟨head, behind, hs, hhead, -⟩ := List.map_eq_cons_iff.mp hp
  simp only [relocateHead, hs, hhead, h, ite_self]

theorem dropWhile_steps (h : name ≠ "super") (rest : List String) :
    (List.replicate steps "super" ++ name :: rest).dropWhile (· == "super") = name :: rest := by
  rw [List.dropWhile_append_of_pos (by simp), List.dropWhile_cons_of_neg (by simpa using h)]

theorem names_ofNames (leading : Bool) (names : List String) :
    (ofNames leading names).names = names := by
  simp [ofNames, Path.names, segments, Segment.ident, Function.comp_def]

theorem relocateHead_relative_of_none (h : name ≠ "super") (hr : r.lookup name = none) :
    (relative steps (name :: rest)).relocateHead r = relative steps (name :: rest) := by
  have hnames : (relative steps (name :: rest)).names.dropWhile (· == "super") = name :: rest := by
    rw [relative, names_ofNames, dropWhile_steps h]
  exact relocateHead_of_lookup_eq_none hnames hr

/-- A relocated name is put behind its new path, and the steps go away. -/
theorem relocateHead_relative_of_some {target : Path} (h : name ≠ "super")
    (hr : r.lookup name = some target) :
    (relative steps (name :: rest)).relocateHead r = target.appendNames (name :: rest) := by
  have hs : (relative steps (name :: rest)).segments.dropWhile (·.ident.text == "super") =
      (name :: rest).map fun n => .mk ⟨n⟩ .none := by
    rw [relative, ofNames, segments, List.dropWhile_map]
    exact congrArg _ (dropWhile_steps h rest)
  rw [relocateHead, if_neg (by simp [relative, ofNames, leading])]
  dsimp only
  rw [hs, List.map_cons]
  dsimp only
  rw [Segment.ident, hr]
  simp [appendNames, appendIdents]

/-- A path below a root that is global or begins with a path keyword stays there. -/
theorem below_relocate {root : Path} (idents : List Ident)
    (hroot : root.leading = true ∨ root.names.head? = some "crate")
    (hr : r.lookup "crate" = none) :
    root.Below (idents.map (·.text))
      (((root.appendIdents idents).mapTypes (Ty.relocateHead r)).relocateHead r) := by
  have hstays : ((root.appendIdents idents).mapTypes (Ty.relocateHead r)).relocateHead r =
      (root.mapTypes (Ty.relocateHead r)).appendIdents idents := by
    rw [mapTypes_appendIdents]
    rcases hroot with hl | hc
    · exact relocateHead_of_leading (by rw [leading_appendIdents, leading_mapTypes, hl])
    · obtain ⟨rest, hn⟩ := List.head?_eq_some_iff.mp hc
      have hnames : ((root.mapTypes (Ty.relocateHead r)).appendIdents idents).names.dropWhile
          (· == "super") = "crate" :: (rest ++ idents.map (·.text)) := by
        rw [names_appendIdents, names_mapTypes, hn, List.cons_append,
          List.dropWhile_cons_of_neg (by decide)]
      exact relocateHead_of_lookup_eq_none hnames hr
  rw [hstays]
  exact below_appendIdents (leading_mapTypes root) (names_mapTypes root) idents

end Path

/-- The type that a name stands for stays if the name is not relocated. -/
theorem Ty.relocate_named {name : Ident} (h : r.lookup name.text = none) :
    (Ty.named name).relocate r = .named name := by
  have hpath : (Path.relative 0 [name.text]).relocateHead r = .relative 0 [name.text] := by
    by_cases hname : name.text = "super"
    · rw [hname]
      rfl
    · exact Path.relocateHead_relative_of_none hname h
  rw [named, relocate_path, Path.mapTypes_ofNames]
  exact congrArg Ty.path hpath

end SchemaBindings.Code
