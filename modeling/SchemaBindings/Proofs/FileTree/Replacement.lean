import Mathlib.Data.List.TakeWhile
import Mathlib.Logic.Function.Basic
import SchemaBindings.Proofs.Ending

/-!
What giving a file a new text does to all files of a tree. The text is first written beside the
file, so what stood there is lost, and the new text stays there if the file cannot be replaced.
-/

namespace SchemaBindings

open FileTree (Location place arrive)

/-! ## Paths with a name at the end -/

namespace FilePath

variable {path p name : String} {before idle : List String} {c : Component}

/-- A piece that leads somewhere is a step behind all others. -/
theorem steps_concat (before : List String) (hp : stepOf? p = some c) :
    steps (before ++ [p]) = steps before ++ [c] := by
  have hempty : p ≠ "" := by
    rintro rfl
    cases hp
  have hcurrent : p ≠ "." := by
    rintro rfl
    cases hp
  have hlast : [p].filterMap stepOf? = [c] := by
    rw [List.filterMap_cons, hp]
    rfl
  cases before with
  | nil => rw [List.nil_append, steps_cons hempty hcurrent, hlast]; rfl
  | cons q rest =>
    by_cases hroot : q = ""
    · subst hroot
      simp [steps, hp]
    by_cases hhere : q = "."
    · subst hhere
      simp [steps, hp]
    · rw [List.cons_append, steps_cons hroot hhere, steps_cons hroot hhere, ← List.cons_append,
        List.filterMap_append, hlast]

/-- The last piece of a path that leads somewhere, with the pieces around it. -/
structure LastStep (path : String) (before : List String) (p : String) (c : Component)
    (idle : List String) : Prop where
  pieces_eq : pieces path = before ++ p :: idle
  step : stepOf? p = some c
  idle : ∀ q ∈ idle, isIdle q = true

namespace LastStep

theorem isIdle_eq (h : LastStep path before p c idle) : isIdle p = false := by
  have hstep := h.step
  unfold stepOf? at hstep
  split at hstep <;> simp_all [isIdle]

theorem dropWhile_pieces (h : LastStep path before p c idle) :
    (pieces path).reverse.dropWhile isIdle = p :: before.reverse := by
  rw [h.pieces_eq, List.reverse_append, List.reverse_cons, List.append_assoc,
    List.dropWhile_append_of_pos (by simpa using h.idle), List.singleton_append,
    List.dropWhile_cons_of_neg (by rw [h.isIdle_eq]; decide)]

theorem components_eq (h : LastStep path before p c idle) :
    components path = steps before ++ [c] := by
  have hne : pieces path ≠ [""] := by
    intro heq
    have hmem : p ∈ pieces path := h.pieces_eq ▸ List.mem_append_right _ List.mem_cons_self
    have hp := h.isIdle_eq
    rw [heq, List.mem_singleton] at hmem
    rw [hmem] at hp
    cases hp
  rw [components_eq_steps hne, h.pieces_eq, ← List.singleton_append, ← List.append_assoc,
    steps_append_idle _ (by simp) h.idle, steps_concat before h.step]

end LastStep

/-- Only the path to the root or to where it begins has no such piece. -/
theorem exists_lastStep (path : String) :
    (∀ p ∈ pieces path, isIdle p = true) ∨ ∃ before p c idle, LastStep path before p c idle := by
  cases hkept : (pieces path).reverse.dropWhile isIdle with
  | nil =>
    left
    intro p hp
    exact List.dropWhile_eq_nil_iff.mp hkept p (List.mem_reverse.mpr hp)
  | cons p rest =>
    right
    have hp : isIdle p = false := by
      have hhead := List.head_dropWhile_not isIdle (l := (pieces path).reverse) (by simp [hkept])
      simpa [hkept] using hhead
    have hpieces : pieces path = rest.reverse ++ p ::
        ((pieces path).reverse.takeWhile isIdle).reverse := by
      have hsplit := List.takeWhile_append_dropWhile (p := isIdle) (l := (pieces path).reverse)
      rw [hkept] at hsplit
      simpa using (congrArg List.reverse hsplit).symm
    obtain ⟨c, hc⟩ : ∃ c, stepOf? p = some c := by
      unfold stepOf?
      split
      · cases hp
      · cases hp
      · exact ⟨_, rfl⟩
      · exact ⟨_, rfl⟩
    refine ⟨_, p, c, _, hpieces, hc, fun q hq => ?_⟩
    exact List.mem_takeWhile_imp (List.mem_reverse.mp hq)

theorem LastStep.cases (h : LastStep path before p c idle) :
    c = .parent ∨ c = .normal p ∧ IsName p := by
  have hslash : '/' ∉ p.toList :=
    slash_notMem_of_mem_pieces (h.pieces_eq ▸ List.mem_append_right _ List.mem_cons_self)
  have hstep := h.step
  unfold stepOf? at hstep
  split at hstep
  · cases hstep
  · cases hstep
  · exact .inl (Option.some.inj hstep).symm
  · next hempty hcurrent hparent =>
    exact .inr ⟨(Option.some.inj hstep).symm, hempty, hcurrent, hparent, hslash⟩

/-! ### The path beside it -/

theorem mem_of_mem_splitName {x : Char} (h : x ∈ (splitName name).1.toList) : x ∈ name.toList := by
  unfold splitName at h
  dsimp only at h
  split at h
  · exact h
  · rw [String.toList_ofList] at h
    exact List.mem_of_mem_take h

theorem isName_withExtension (h : '/' ∉ name.toList) : IsName (name ++ "." ++ "tmp") := by
  have htext : (name ++ "." ++ "tmp").toList = name.toList ++ ['.', 't', 'm', 'p'] := by
    simp [String.toList_append]
  have hlast : (name ++ "." ++ "tmp").toList.getLast? = some 'p' := by
    rw [htext, List.getLast?_append]
    rfl
  refine ⟨?_, ?_, ?_, ?_⟩
  · intro heq
    rw [heq] at hlast
    cases hlast
  · intro heq
    rw [heq] at hlast
    revert hlast
    decide
  · intro heq
    rw [heq] at hlast
    revert hlast
    decide
  · rw [htext, List.mem_append, not_or]
    exact ⟨h, by decide⟩

/-- A name with another extension is not that of the temporary file. -/
theorem splitName_ne (h : (splitName name).2 ≠ some "tmp") :
    (splitName name).1 ++ "." ++ "tmp" ≠ name := by
  intro heq
  have hsplit := heq
  unfold splitName at h hsplit
  dsimp only at h hsplit
  split at hsplit
  · have hlength := congrArg (·.toList.length) hsplit
    simp [String.toList_append] at hlength
  · next hcond =>
    rw [if_neg hcond] at h
    refine h (congrArg some ?_)
    have htext : name.toList = (splitName name).1.toList ++ ['.', 't', 'm', 'p'] := by
      rw [← congrArg String.toList heq]
      simp [String.toList_append]
    rw [htext]
    simp [List.takeWhile]

theorem LastStep.fileName?_eq (h : LastStep path before p (.normal name) idle) :
    fileName? path = some name := by
  rw [fileName?, h.components_eq, List.getLast?_concat]

/-- A path with a name at its end, and the one beside it. -/
theorem LastStep.temporary (h : LastStep path before name (.normal name) idle)
    (hname : IsName name) :
    EndsWith (temporaryPath path) before ((splitName name).1 ++ "." ++ "tmp") := by
  have hbeside : IsName ((splitName name).1 ++ "." ++ "tmp") :=
    isName_withExtension fun hmem => hname.slash (mem_of_mem_splitName hmem)
  refine ⟨?_, hbeside⟩
  rw [temporaryPath, withExtension, h.fileName?_eq, h.dropWhile_pieces]
  simp only [List.reverse_cons, List.reverse_reverse]
  rw [pieces_intercalate (by simp)]
  intro q hq
  rcases List.mem_append.mp hq with hq | hq
  · exact slash_notMem_of_mem_pieces (h.pieces_eq ▸ List.mem_append_left _ hq)
  · exact List.mem_singleton.mp hq ▸ hbeside.slash

end FilePath

/-! ## Where paths lead in a tree -/

namespace FileTree

open FilePath

variable {t t' : FileTree} {l l' : Location} {path text name : String} {before idle : List String}

/-- Everything above a location is a directory. -/
def IsReached (t : FileTree) (l : Location) : Prop :=
  ∀ front, front <+: l → front ≠ l → t.isDirectory front = true

theorem IsReached.dropLast (h : t.IsReached l) (hl : l ≠ []) : t.isDirectory l.dropLast = true := by
  refine h _ (List.dropLast_prefix l) fun heq => ?_
  have hlength := congrArg List.length heq
  rw [List.length_dropLast] at hlength
  have := List.length_pos_iff.mpr hl
  omega

theorem IsReached.step (h : t.IsReached l) {c : Component} (hs : t.step? l c = some l') :
    t.IsReached l' := by
  intro front hfront hne
  cases c with
  | root =>
    cases hs
    exact absurd (List.prefix_nil.mp hfront) hne
  | current =>
    cases hs
    exact h front hfront hne
  | parent =>
    rw [step?] at hs
    split at hs
    · cases hs
      refine h front (hfront.trans (List.dropLast_prefix l)) ?_
      rintro rfl
      exact hne (hfront.eq_of_length_le (by simp))
    · cases hs
  | normal name =>
    rw [step?] at hs
    split at hs
    · next hdirectory =>
      cases hs
      rcases List.prefix_concat_iff.mp hfront with heq | hprefix
      · exact absurd heq hne
      · by_cases hself : front = l
        · exact hself ▸ hdirectory
        · exact h front hprefix hself
    · cases hs

theorem IsReached.steps (h : t.IsReached l) {cs : List Component}
    (hs : cs.foldlM t.step? l = some l') : t.IsReached l' := by
  induction cs generalizing l with
  | nil =>
    cases hs
    exact h
  | cons c cs ih =>
    obtain ⟨next, hstep, hrest⟩ := Option.bind_eq_some_iff.mp hs
    exact ih (h.step hstep) hrest

theorem isReached_nil : t.IsReached [] :=
  fun _ hfront hne => absurd (List.prefix_nil.mp hfront) hne

theorem locate?_eq_some (h : t.locate? path = some l) :
    (components path).foldlM t.step? [] = some l ∧
      (endsInDirectory path = true → t.isDirectory l = true) := by
  unfold locate? at h
  split at h
  · next hgone =>
    split at h <;> cases h
    exact ⟨hgone, fun hend => by simp_all⟩
  · cases h

/-- A way can be gone on from its end by a name only if it passes through directories. -/
theorem isDirectory_of_foldlM_step? {cs : List Component} (hroot : Component.root ∉ cs)
    (h : (cs ++ [Component.normal name]).foldlM t.step? l = some l') :
    t.isDirectory l = true ∧ ∀ place ∈ stops l cs, t.isDirectory place = true := by
  induction cs generalizing l with
  | nil =>
    obtain ⟨_, hstep, -⟩ := Option.bind_eq_some_iff.mp h
    rw [step?] at hstep
    split at hstep
    · next hl => exact ⟨hl, List.forall_mem_nil _⟩
    · cases hstep
  | cons c cs ih =>
    obtain ⟨next, hstep, hrest⟩ := Option.bind_eq_some_iff.mp h
    obtain ⟨hnext, hlater⟩ := ih (fun hmem => hroot (List.mem_cons_of_mem _ hmem)) hrest
    obtain rfl := lead_of_step? hstep
    refine ⟨?_, List.forall_mem_cons.mpr ⟨hnext, hlater⟩⟩
    cases c with
    | root => exact absurd List.mem_cons_self hroot
    | current => exact hnext
    | parent | normal =>
      rw [step?] at hstep
      split at hstep
      · assumption
      · cases hstep

/-- A path leads somewhere only if all that is around it are directories. -/
theorem isDirectory_of_mem_around (hends : EndsWith path before name)
    (hl : t.locate? path = some l) : ∀ place ∈ around path, t.isDirectory place = true := by
  have hgone := (locate?_eq_some hl).1
  have hroot := root_notMem_tail path
  rw [hends.components_eq] at hgone hroot
  rw [hends.around_eq]
  cases hsteps : steps before with
  | nil => exact List.forall_mem_nil _
  | cons c cs =>
    rw [hsteps] at hgone hroot
    obtain ⟨next, hstep, hrest⟩ := Option.bind_eq_some_iff.mp hgone
    obtain rfl := lead_of_step? hstep
    have htail : Component.root ∉ cs := fun hmem => hroot (List.mem_append_left _ hmem)
    exact List.forall_mem_cons.mpr (isDirectory_of_foldlM_step? htail hrest)

/-- A path without a name at its end leads to a directory, if it leads anywhere. -/
theorem isDirectory_of_fileName?_eq_none (hpath : fileName? path = none)
    (hl : t.locate? path = some l) : t.isDirectory l = true := by
  obtain ⟨hgone, -⟩ := locate?_eq_some hl
  rcases exists_lastStep path with hidle | ⟨before, p, c, idle, hlast⟩
  · rw [eq_place_of_locate? hl, place]
    rcases components_of_idle hidle with heq | heq | heq <;> rw [heq] <;> rfl
  · rcases hlast.cases with rfl | ⟨rfl, -⟩
    · rw [hlast.components_eq, List.foldlM_append] at hgone
      obtain ⟨inner, hinner, hgone⟩ := Option.bind_eq_some_iff.mp hgone
      obtain ⟨_, hup, hend⟩ := Option.bind_eq_some_iff.mp hgone
      cases hend
      rw [step?] at hup
      split at hup
      · next hdirectory =>
        cases hup
        by_cases hroot : inner = []
        · rw [hroot]
          rfl
        · exact (isReached_nil.steps hinner).dropLast hroot
      · cases hup
    · rw [hlast.fileName?_eq] at hpath
      cases hpath

/-- Nothing can be written to such a path. -/
theorem write?_of_fileName?_eq_none (hpath : fileName? path = none) :
    t.write? path text = none := by
  unfold write?
  cases hl : t.locate? path with
  | none => rfl
  | some l =>
    have hdirectory := isDirectory_of_fileName?_eq_none hpath hl
    simp [hdirectory]

/-! ## Writing beside a file and moving -/

theorem locate?_congr (h : t'.isDirectory = t.isDirectory) : t'.locate? = t.locate? := by
  have hstep : t'.step? = t.step? := by
    funext l c
    cases c <;> simp only [step?, h]
  funext path
  simp only [locate?, hstep, h]

theorem isDirectory_write? (h : t.write? path text = some t') : t'.isDirectory = t.isDirectory := by
  obtain ⟨-, hfree, rfl⟩ := write?_eq_some h
  funext l
  simp only [isDirectory, get?_put]
  split
  · next hl =>
    rw [hl.1]
    simpa [isDirectory] using hfree
  · rfl

/-- Nothing is left where a file was moved away from. -/
theorem text?_rename?_source {source target : String} (h : t.rename? source target = some t')
    (hne : place source ≠ place target) : t'.text? (place source) = none := by
  obtain ⟨text, hget, hfree, rfl⟩ := rename?_eq_some h
  rw [text?_put (ne_nil_of_not_isDirectory hfree), if_neg hne,
    text?_erase (ne_nil_of_get?_file hget), if_pos rfl]

/-- What was written beside a file can be moved there, unless a directory is in its place or the
path is that of a directory. -/
theorem isDirectory_of_rename?_eq_none (hlast : LastStep path before name (.normal name) idle)
    (hname : IsName name) (hw : t.write? (temporaryPath path) text = some t')
    (hr : t'.rename? (temporaryPath path) path = none) :
    t'.isDirectory (place path) = true ∨ endsInDirectory path = true := by
  obtain ⟨hbeside, -, -⟩ := write?_eq_some hw
  have htext := text?_write? hw (place (temporaryPath path))
  rw [if_pos rfl] at htext
  rw [← locate?_congr (isDirectory_write? hw)] at hbeside
  obtain ⟨hgone, -⟩ := locate?_eq_some hbeside
  -- Both paths lead through the same directories.
  rw [(hlast.temporary hname).components_eq, List.foldlM_append] at hgone
  obtain ⟨inner, hinner, hstep⟩ := Option.bind_eq_some_iff.mp hgone
  obtain ⟨_, hstep, -⟩ := Option.bind_eq_some_iff.mp hstep
  rw [step?] at hstep
  split at hstep
  · next hdirectory =>
    have hpath : (components path).foldlM t'.step? [] = some (inner ++ [name]) := by
      rw [hlast.components_eq, List.foldlM_append, hinner]
      simp [step?, hdirectory]
    by_contra hneither
    rw [not_or] at hneither
    have hlocate : t'.locate? path = some (inner ++ [name]) := by
      rw [locate?, hpath]
      simp [hneither.2]
    have hfile : t'.get? (place (temporaryPath path)) = some (.file text) := by
      rw [text?] at htext
      obtain ⟨n, hn, hfile⟩ := Option.bind_eq_some_iff.mp htext
      cases n <;> cases hfile
      exact hn
    rw [eq_place_of_locate? hlocate] at hlocate
    rw [rename?, hbeside, hlocate] at hr
    simp [hfile, hneither.1] at hr
  · cases hstep

end FileTree

/-! ## Giving a file a new text -/

section

open FilePath

variable {t t' : FileTree} {path text : String}

/-- A path that something can be written beside has a name at its end. -/
theorem exists_lastStep_of_write? {t' : FileTree}
    (h : t.write? (temporaryPath path) text = some t') :
    ∃ before name idle, LastStep path before name (.normal name) idle ∧ IsName name := by
  have hname : fileName? path ≠ none := by
    intro hnone
    have hself : temporaryPath path = path := by
      rw [temporaryPath, withExtension, hnone]
    rw [hself, FileTree.write?_of_fileName?_eq_none hnone] at h
    cases h
  rcases exists_lastStep path with hidle | ⟨before, p, c, idle, hlast⟩
  · refine absurd ?_ hname
    rw [fileName?]
    rcases components_of_idle hidle with heq | heq | heq <;> rw [heq] <;> rfl
  · rcases hlast.cases with rfl | ⟨rfl, hp⟩
    · rw [fileName?, hlast.components_eq, List.getLast?_concat] at hname
      exact absurd rfl hname
    · exact ⟨before, p, idle, hlast, hp⟩

/-- Nothing happens to the files before the text has been written beside its place. From there it is
moved, or stays if that is refused. -/
theorem exists_write?_of_writeWhole {r : Except Failure Unit}
    (h : Ends (writeWhole path text) t r t') :
    (∃ e, r = .error e ∧ t'.text? = t.text?) ∨
      ∃ t₁ t₂ : FileTree, t₁.text? = t.text? ∧ t₁.write? (temporaryPath path) text = some t₂ ∧
        (r = .ok () ∧ t₂.rename? (temporaryPath path) path = some t' ∨
          r = .error (.unwritable path) ∧ t₂.rename? (temporaryPath path) path = none ∧
            t' = t₂) := by
  have hwrite_of {path : String} {s s' : FileTree} {done : Bool}
      (h : (FileSystem.write path text : StateM FileTree Bool).run s = (done, s')) :
      FileTree.change (·.write? path text) s = (done, s') := h
  have hrename_of {source target : String} {s s' : FileTree} {done : Bool}
      (h : (FileSystem.rename source target : StateM FileTree Bool).run s = (done, s')) :
      FileTree.change (·.rename? source target) s = (done, s') := h
  rcases h.of_writeWhole with ⟨t₁, htexts, h⟩ | ⟨rfl, htexts⟩
  · rcases h.of_bind with ⟨_, t₂, hwrite, h⟩ | ⟨e, hwrite, rfl⟩ <;>
      rcases hwrite.of_orUnwritable with ⟨he, hrun⟩ | ⟨he, hrun⟩ <;> cases he
    · obtain ⟨-, hwritten⟩ | ⟨hdone, -⟩ := FileTree.change_eq (hwrite_of hrun)
      · refine .inr ⟨t₁, t₂, htexts, hwritten, ?_⟩
        rcases h.of_orUnwritable with ⟨rfl, hrun⟩ | ⟨rfl, hrun⟩
        · obtain ⟨-, hmoved⟩ | ⟨hdone, -⟩ := FileTree.change_eq (hrename_of hrun)
          · exact .inl ⟨rfl, hmoved⟩
          · cases hdone
        · obtain ⟨hdone, -⟩ | ⟨-, hrefused, rfl⟩ := FileTree.change_eq (hrename_of hrun)
          · cases hdone
          · exact .inr ⟨rfl, hrefused, rfl⟩
      · cases hdone
    · obtain ⟨hdone, -⟩ | ⟨-, -, rfl⟩ := FileTree.change_eq (hwrite_of hrun)
      · cases hdone
      · exact .inl ⟨_, rfl, htexts⟩
  · exact .inl ⟨_, rfl, htexts⟩

/-- A file that could be given a text is not in the place of a directory around it, and neither is
the one beside it. -/
theorem notMem_around_of_writeWhole {before : List String} {name : String}
    (htarget : IsTarget path before name) (h : Ends (writeWhole path text) t (.ok ()) t') :
    place path ∉ FileTree.around path ∧
      place (temporaryPath path) ∉ FileTree.around path := by
  obtain ⟨_, he, -⟩ | ⟨t₁, t₂, -, hwrite, ⟨-, hmove⟩ | ⟨he, -⟩⟩ := exists_write?_of_writeWhole h
  · cases he
  · obtain ⟨hbeside, hother, -⟩ := FileTree.write?_eq_some hwrite
    obtain ⟨_, -, hfree, -⟩ := FileTree.rename?_eq_some hmove
    rw [FileTree.isDirectory_write? hwrite] at hfree
    have haround : ∀ l ∈ FileTree.around path, t₁.isDirectory l = true := by
      rw [← htarget.around_temporary]
      exact FileTree.isDirectory_of_mem_around htarget.temporary hbeside
    exact ⟨fun hmem => hfree (haround _ hmem), fun hmem => hother (haround _ hmem)⟩
  · cases he

/-- What a file tree is after a file was to be given a new text. If that succeeds, the file has the
text, nothing is left where it was written first, and all other files are as before. If it fails,
all files are as before, save that the text stays where it was written first if it could not be
moved from there, as the path is that of a directory. -/
theorem writeWhole_leaves {r : Except Failure Unit} (hext : extension? path ≠ some "tmp")
    (h : Ends (writeWhole path text) t r t') :
    (r = .ok () → t'.text? = Function.update
      (Function.update t.text? (place (temporaryPath path)) none) (place path) (some text)) ∧
    ∀ e, r = .error e → t'.text? = t.text? ∨
      e = .unwritable path ∧ place (temporaryPath path) ≠ place path ∧
        (t'.isDirectory (place path) = true ∨ endsInDirectory path = true) ∧
        t'.text? = Function.update t.text? (place (temporaryPath path)) (some text) := by
  rcases exists_write?_of_writeWhole h with ⟨e, rfl, htexts⟩ | ⟨t₁, t₂, htexts, hwrite, hmove⟩
  · exact ⟨fun hr => (by cases hr), fun _ _ => .inl htexts⟩
  obtain ⟨before, name, idle, hlast, hname⟩ := exists_lastStep_of_write? hwrite
  have hne : place (temporaryPath path) ≠ place path := by
    rw [(hlast.temporary hname).place_eq, place, hlast.components_eq, FileTree.arrive_append]
    intro heq
    rw [extension?, hlast.fileName?_eq] at hext
    exact splitName_ne hext (List.singleton_inj.mp (List.append_cancel_left heq))
  have hwritten : t₂.text? =
      Function.update t.text? (place (temporaryPath path)) (some text) := by
    funext l
    rw [FileTree.text?_write? hwrite, Function.update_apply, htexts]
  rcases hmove with ⟨rfl, hmoved⟩ | ⟨rfl, hrefused, rfl⟩
  · refine ⟨fun _ => ?_, fun _ hr => (by cases hr)⟩
    obtain ⟨htarget, hother⟩ := FileTree.text?_rename? hmoved
    funext l
    by_cases hl : l = place path
    · rw [hl, Function.update_self, htarget, hwritten, Function.update_self]
    rw [Function.update_of_ne hl]
    by_cases hbeside : l = place (temporaryPath path)
    · rw [hbeside, Function.update_self, FileTree.text?_rename?_source hmoved hne]
    · rw [Function.update_of_ne hbeside, hother l hbeside hl, hwritten,
        Function.update_of_ne hbeside]
  · refine ⟨fun hr => (by cases hr), fun e he => .inr ⟨(Except.error.inj he).symm, hne, ?_,
      hwritten⟩⟩
    exact FileTree.isDirectory_of_rename?_eq_none hlast hname hwrite hrefused

/-- A file beside another one, in which a text is to be written first, and a directory. -/
def besideTree : FileTree where
  nodes := [(["a.tmp"], .file "kept"), (["b.rs"], .file "b"), (["d"], .directory)]

theorem writeWhole_leaves_beside :
    extension? "a.rs" ≠ some "tmp" ∧ ∃ t', Ends (writeWhole "a.rs" "x") besideTree (.ok ()) t' ∧
      t'.text? = Function.update
        (Function.update besideTree.text? (place (temporaryPath "a.rs")) none)
        (place "a.rs") (some "x") := by
  have hext : extension? "a.rs" ≠ some "tmp" := by decide
  have hends : Ends (writeWhole "a.rs" "x") besideTree (.ok ())
      ⟨[(["a.rs"], .file "x"), (["b.rs"], .file "b"), (["d"], .directory)]⟩ := by
    rfl
  exact ⟨hext, _, hends, (writeWhole_leaves hext hends).1 rfl⟩

/-- The file beside is lost when the text is moved away from there, and a text that cannot be moved
is a new file. -/
theorem writeWhole_changes_beside :
    (∃ t', Ends (writeWhole "a.rs" "x") besideTree (.ok ()) t' ∧
      t'.text? ≠ Function.update besideTree.text? (place "a.rs") (some "x")) ∧
    ∃ e t', Ends (writeWhole "d" "y") besideTree (.error e) t' ∧ t'.text? ≠ besideTree.text? := by
  refine ⟨⟨_, rfl, fun heq => ?_⟩, _, _, rfl, fun heq => ?_⟩
  · have hbeside := congrFun heq ["a.tmp"]
    revert hbeside
    decide
  · have hbeside := congrFun heq ["d.tmp"]
    revert hbeside
    decide

end

end SchemaBindings
