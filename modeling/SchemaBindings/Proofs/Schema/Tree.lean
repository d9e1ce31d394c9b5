import SchemaBindings.Schema.Tree
import SchemaBindings.Proofs.Ending
import SchemaBindings.Proofs.Proto.Compile

/-!
Loading the schema files below a directory. It only reads: every text stays as it is, whether the
files can be loaded or not.
-/

namespace SchemaBindings.SchemaTree

open FileTree (place)
open LawfulFileSystem (text?)

variable {σ : Type}

section

variable {α β : Type} {s s' : σ}

theorem run_bind {x : StateM σ α} {f : α → StateM σ β} {b : β} (h : (x >>= f).run s = (b, s')) :
    ∃ a t, x.run s = (a, t) ∧ (f a).run t = (b, s') :=
  ⟨_, _, rfl, h⟩

/-- What the same action preserves and answers for every element of a list. -/
theorem mapM_run {f : α → StateM σ β} {as : List α} (Inv : σ → Prop) (Q : α → β → Prop)
    (hf : ∀ a ∈ as, ∀ s b s', Inv s → (f a).run s = (b, s') → Inv s' ∧ Q a b) {bs : List β}
    (hs : Inv s) (h : (as.mapM f).run s = (bs, s')) : Inv s' ∧ ∀ b ∈ bs, ∃ a ∈ as, Q a b := by
  induction as generalizing s s' bs with
  | nil =>
    cases h
    exact ⟨hs, nofun⟩
  | cons a rest ih =>
    obtain ⟨hfirst, hrest⟩ := List.forall_mem_cons.mp hf
    rw [List.mapM_cons] at h
    obtain ⟨b, t, hrun, h⟩ := run_bind h
    obtain ⟨cs, t', hall, h⟩ := run_bind h
    cases h
    obtain ⟨ht, hb⟩ := hfirst s b t hs hrun
    obtain ⟨ht', hcs⟩ := ih hrest ht hall
    refine ⟨ht', List.forall_mem_cons.mpr ⟨⟨a, List.mem_cons_self, hb⟩, fun c hc => ?_⟩⟩
    obtain ⟨a', ha', hq⟩ := hcs c hc
    exact ⟨a', List.mem_cons_of_mem _ ha', hq⟩

end

variable [FileSystem (StateM σ)] [LawfulFileSystem σ] {s s' : σ} {root : String}

theorem discover_ends {r : Except Failure (List String)} (h : Ends (discover root) s r s') :
    text? s' = text? s ∧ Yields Failure.OfLoading r fun _ => True := by
  unfold discover at h
  obtain ⟨answer, t, hrun, h⟩ := h.of_bind_action
  have hkept := (LawfulFileSystem.filesBelow hrun).1
  cases answer with
  | none =>
    obtain ⟨rfl, rfl⟩ := h.of_throw
    exact ⟨hkept, .error trivial⟩
  | some files =>
    obtain ⟨rfl, rfl⟩ := h.of_pure
    exact ⟨hkept, .ok trivial⟩

/-- No source is without a name: where there are files with names, there is no file itself. -/
theorem sources_run {texts : Proto.Sources} (h : (sources root : StateM σ _).run s = (texts, s')) :
    text? s' = text? s ∧ texts.lookup "" = none := by
  unfold sources at h
  obtain ⟨answer, t, hbelow, h⟩ := run_bind h
  obtain ⟨found, t', hread, h⟩ := run_bind h
  cases h
  obtain ⟨hkept, hfiles⟩ := LawfulFileSystem.filesBelow hbelow
  have hall := mapM_run (fun u => text? u = text? s)
    (fun names entry => ∀ e, entry = some e → e.1 = "/".intercalate names ∧
      text? s (place (FilePath.below root names)) ≠ none) (fun names _ u entry u' hu h => ?_)
    hkept hread
  · refine ⟨hall.1, List.lookup_eq_none_iff.mpr fun e he => bne_iff_ne.mpr fun hempty => ?_⟩
    -- A file without a name would be read at the root, below which there are others.
    obtain ⟨entry, hentry, hof⟩ := List.mem_filterMap.mp he
    obtain ⟨names, hnames, hread⟩ := hall.2 entry hentry
    obtain ⟨hkey, hsome⟩ := hread e hof
    obtain ⟨hmem, hne⟩ := List.mem_filter.mp hnames
    have hroot : FilePath.below root names = root := by
      rw [FilePath.below, ← hkey, ← hempty]
      rfl
    rw [hroot] at hsome
    cases answer with
    | none => cases hmem
    | some files => exact hsome (hfiles files rfl names hmem (by simpa using hne))
  · obtain ⟨answer, v, hrun, h⟩ := run_bind h
    cases h
    obtain ⟨hsame, htext⟩ := LawfulFileSystem.read hrun
    refine ⟨hsame.trans hu, fun e he => ?_⟩
    obtain ⟨text, rfl, rfl⟩ := Option.map_eq_some_iff.mp he
    refine ⟨rfl, fun hnone => ?_⟩
    rw [← hu, htext text rfl] at hnone
    cases hnone

theorem load_ends {paths : List String} {r : Except Failure (List SchemaFile)}
    (h : Ends (load root paths) s r s') :
    text? s' = text? s ∧
      Yields Failure.OfLoading r fun files => ∀ f ∈ files, f.module.segments ≠ [] := by
  unfold load at h
  obtain ⟨texts, t, hrun, h⟩ := h.of_bind_action
  obtain ⟨hkept, hnone⟩ := sources_run hrun
  obtain ⟨rfl, rfl⟩ := h.of_result
  exact ⟨hkept, Proto.load_yields hnone⟩

end SchemaBindings.SchemaTree
