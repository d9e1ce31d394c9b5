import SchemaBindings.Proofs.Binding.Offences
import SchemaBindings.Proofs.Package.Safety

/-!
The items of a schema that no package can be made for. If generation fails because of one of them,
it is the first one in the order of generation.
-/

namespace SchemaBindings

/-- What the items of a schema may name: the scalar kinds and full names that have types, and what
its files define. -/
def Generator.terms (g : Generator) (files : List SchemaFile) : Terms where
  isScalar kind := (g.types.scalar? kind).isSome
  isType fullName :=
    (g.types.extern? fullName).isSome || ((definitions files).map (·.1)).contains fullName
  refusesMethods := g.settings.unimplemented = .failFast

/-- The offences of a schema, file by file. -/
def Generator.offences (g : Generator) (files : List SchemaFile) : List Failure :=
  files.flatMap (SchemaFile.offences (g.terms files))

namespace SymbolTable

variable {asyncPrefix : String} {t : SymbolTable} {files : List SchemaFile}

theorem Describes.isSome_get? (hd : t.Describes asyncPrefix files) {fullName : String} :
    (t.get? fullName).isSome = true ↔ fullName ∈ (definitions files).map (·.1) := by
  constructor
  · intro h
    obtain ⟨s, hs⟩ := Option.isSome_iff_exists.mp h
    exact List.mem_map_of_mem (hd.mem_definitions hs)
  · intro h
    obtain ⟨s, -, hlookup⟩ := @exists_lookup_insertEach _ [] _ _ h
    rw [get?, hd.symbols, hlookup]
    rfl

end SymbolTable

namespace Package

variable {g : Generator} {files : List SchemaFile} {f : SchemaFile} {symbols : SymbolTable}

theorem terms_context (hd : symbols.Describes g.settings.asyncPrefix files) (f : SchemaFile) :
    (g.context symbols f).terms = g.terms files := by
  refine Terms.ext rfl (funext fun fullName => ?_) rfl
  refine congrArg ((g.types.extern? fullName).isSome || ·) ?_
  rw [Bool.eq_iff_iff, List.contains_iff_mem]
  exact hd.isSome_get?

theorem draft_finds (hd : symbols.Describes g.settings.asyncPrefix files) (hf : f ∈ files) :
    Finds (draft g symbols f) (f.offences (g.terms files)) := by
  have hregisters : ∀ d, f.Defines d → (g.context symbols f).Registers d.1 := fun d hdefines =>
    hd.isSome_get?.mpr (List.mem_map_of_mem (mem_definitions.mpr ⟨f, hf, hdefines⟩))
  unfold draft
  rw [← terms_context hd f]
  refine (Binding.moduleFile_finds hregisters {}).bind_nil fun r _ => ?_
  exact (Finds.of_yields (checked_yields trivial _)).bind_nil fun file _ => .ok _

theorem drafts_find (hs : SymbolTable.build files g.settings.asyncPrefix = .ok symbols) :
    Finds (files.mapM (draft g symbols)) (g.offences files) :=
  .mapM fun _ hf => draft_finds (SymbolTable.build_ok hs).1 hf

theorem generate_of_drafts_error {e : Failure}
    (hs : SymbolTable.build files g.settings.asyncPrefix = .ok symbols)
    (hd : files.mapM (draft g symbols) = .error e) : generate g files = .error e := by
  rw [generate, bind_of_ok hs, bind_of_error hd]

/-- Once all modules are made, nothing that fails is an offence. -/
theorem generate_of_drafts {drafts : List Draft}
    (hs : SymbolTable.build files g.settings.asyncPrefix = .ok symbols)
    (hd : files.mapM (draft g symbols) = .ok drafts) :
    Yields (fun e => ¬ e.IsOffence) (generate g files) fun _ => True := by
  have hbad {p : Prop} (h : ¬ ¬ Failure.unusableName.IsOffence) : p := absurd not_false h
  refine generate_yields (P := fun _ => True) (fun e he ho => ?_) (fun symbols' hs' f hf => ?_)
    (fun resolution index d _ _ _ => ?_) fun parent children _ => ?_
  · cases e <;> first | exact he | exact ho
  · cases hs.symm.trans hs'
    obtain ⟨d, -, hdraft⟩ := exists_mem_right (mapM_ok.mp hd) hf
    exact .of_eq_ok hdraft trivial
  · exact finish_yields not_false hbad hbad hbad
  · exact indexFile_yields not_false parent hbad

/-- Nothing but offences and defects ends the generation before all modules are made. -/
theorem head?_offences {e : Failure} (h : generate g files = .error e) (ho : e.IsOffence) :
    (g.offences files).head? = some e := by
  have hdefect : ¬ e.IsDefect := by cases e <;> first | exact not_false | exact ho.elim
  cases hs : SymbolTable.build files g.settings.asyncPrefix with
  | error e' =>
    rw [generate, bind_of_error hs] at h
    cases h
    have hcollision : e.IsCollision := (SymbolTable.build_collides ..).1 e hs
    cases e <;> first | exact hcollision.elim | exact ho.elim
  | ok symbols =>
    cases hd : files.mapM (draft g symbols) with
    | error e' =>
      cases (generate_of_drafts_error hs hd).symm.trans h
      exact ((drafts_find hs).1 e hd).resolve_right hdefect
    | ok drafts => exact absurd ho ((generate_of_drafts hs hd).1 e h)

theorem offences_of_generate {p : Package} (h : generate g files = .ok p) :
    g.offences files = [] := by
  obtain ⟨s, hs, -⟩ := generate_ok.mp h
  exact (drafts_find hs.symbols).2 _ (mapM_ok.mpr hs.drafts)

/-- If generation fails because of an offence, it is the first one of the schema in the order of
generation, and there is no package unless there are none. With usable names the first offence is
what ends the generation, once the table of symbols is built. -/
theorem generate_offends :
    (∀ e, generate g files = .error e → e.IsOffence → (g.offences files).head? = some e) ∧
    (g.offences files = [] → ∀ e, generate g files = .error e → ¬ e.IsOffence) ∧
    (∀ p, generate g files = .ok p → g.offences files = []) ∧
    (g.IsSettled → HasUsableNames files →
      ∀ symbols, SymbolTable.build files g.settings.asyncPrefix = .ok symbols →
        ∀ e, (g.offences files).head? = some e → generate g files = .error e) := by
  refine ⟨fun e => head?_offences, fun hnone e he ho => ?_, fun p => offences_of_generate,
    fun hg hn symbols hs e hfirst => ?_⟩
  · have hfirst := head?_offences he ho
    rw [hnone] at hfirst
    cases hfirst
  · cases hd : files.mapM (draft g symbols) with
    | ok drafts =>
      rw [(drafts_find hs).2 drafts hd] at hfirst
      cases hfirst
    | error e' =>
      have hfaultless : Faultless (files.mapM (draft g symbols)) fun _ => True :=
        (Yields.mapM fun f hf => draft_faultless (hg.context (SymbolTable.build_ok hs).1 hn f)
          (hn.identifiers f hf) fun s hmem => ?_).weaken
      · have hhead := ((drafts_find hs).1 e' hd).resolve_right (hfaultless.1 e' hd)
        cases hfirst.symm.trans hhead
        exact generate_of_drafts_error hs hd
      · exact ne_of_mem_of_not_mem (SchemaFile.mem_typeNames.mpr (.inr (.inr ⟨s, hmem, rfl⟩)))
          (hn.types f hf)

/-- A file in which a message is nested that has a field of no type, behind a field whose type is
known, and with a service that refers to nothing. -/
def offending : List SchemaFile :=
  [{ path := "a.proto", package := "p"
     messages := [{
       name := "A"
       fields := [{ name := "b", type := .named "p.A.B", number := 1 }]
       messages := [{
         name := "B", fields := [{ name := "x", type := .scalar "int7", number := 1 }] }] }]
     services := [{ name := "S", fullName := "p.S", methods := [
       { name := "get", inputType := "p.A", outputType := "p.C" }] }] }]

def offendingSymbols : SymbolTable :=
  (SymbolTable.build offending "Async").toOption.getD {}

theorem generate_offends_nested :
    plain.IsSettled ∧ HasUsableNames offending ∧
    plain.offences offending =
      [.unknownScalar "p.A.B" "x" "int7", .unresolvedType "p.S" "get" "p.C"] ∧
    generate plain offending = .error (.unknownScalar "p.A.B" "x" "int7") ∧
    (Failure.unknownScalar "p.A.B" "x" "int7").IsOffence ∧
    (plain.offences offending).head? = some (.unknownScalar "p.A.B" "x" "int7") ∧
    ∃ p, generate plain crossing = .ok p ∧ plain.offences crossing = [] := by
  have hg : plain.IsSettled := .of_isSimple (by decide +kernel)
  have hn : HasUsableNames offending := ⟨by decide +kernel, by decide +kernel⟩
  have hs : SymbolTable.build offending plain.settings.asyncPrefix = .ok offendingSymbols :=
    ok_getD {} (by decide +kernel)
  have hoffences : plain.offences offending =
      [.unknownScalar "p.A.B" "x" "int7", .unresolvedType "p.S" "get" "p.C"] := by
    decide +kernel
  have he := generate_offends.2.2.2 hg hn offendingSymbols hs _ (congrArg List.head? hoffences)
  obtain ⟨p, hp⟩ := exists_generate_crossing
  exact ⟨hg, hn, hoffences, he, trivial, generate_offends.1 _ he trivial, p, hp,
    generate_offends.2.2.1 p hp⟩

end Package

end SchemaBindings
