import SchemaBindings.Proofs.Code.Settled
import SchemaBindings.Proofs.Code.Types

/-!
Relocated trees, part by part: which types they hold and what else is left as it was. The paths that
names are put behind are plain and end the search for names, since they begin at the root.
-/

namespace SchemaBindings.Code

/-! ## Relocated paths -/

namespace Relocation

def names (r : Relocation) : List String :=
  r.map (·.1)

/-- All paths that names are put behind begin at the root, which is not one of the names. -/
structure IsRooted (r : Relocation) : Prop where
  targets : ∀ e ∈ r, e.2.leading = true ∨ e.2.names.head? = some "crate"
  crate : "crate" ∉ r.names

end Relocation

variable {r : Relocation} {f : Ty → Ty}

namespace Path

variable {p : Path} {names : List String}

theorem segments_mapTypes (p : Path) :
    (p.mapTypes f).segments = p.segments.map (·.mapTypes f) := by
  cases p
  exact mapSegments_eq f _

theorem behindSteps_mapTypes (p : Path) :
    (p.mapTypes f).behindSteps = p.behindSteps.map (·.mapTypes f) := by
  simp only [behindSteps, segments_mapTypes, List.dropWhile_map, Function.comp_def,
    Segment.ident_mapTypes]

theorem beginsWith_mapTypes (p : Path) : (p.mapTypes f).beginsWith names = p.beginsWith names := by
  rw [beginsWith, beginsWith, leading_mapTypes, behindSteps_mapTypes, List.head?_map,
    Option.any_map]
  simp only [Segment.ident_mapTypes]

theorem steps_mapTypes (p : Path) : (p.mapTypes f).steps names = p.steps names := by
  simp only [steps, beginsWith_mapTypes, segments_mapTypes, behindSteps_mapTypes, List.length_map]

theorem drop_steps (h : p.beginsWith names = true) :
    p.segments.drop (p.steps names) = p.behindSteps := by
  rw [steps, if_pos h]
  exact (List.suffix_iff_eq_drop.mp (List.dropWhile_suffix _)).symm

theorem beginsWith_iff : p.beginsWith names = true ↔ p.leading = false ∧
    ∃ head rest, p.behindSteps = head :: rest ∧ head.ident.text ∈ names := by
  rw [beginsWith, Bool.and_eq_true, Bool.not_eq_true']
  cases p.behindSteps <;> simp

/-- The first name of a path is put behind the path found for it, and the steps before it go
away. -/
theorem relocateHead_of_lookup {head : Segment} {rest : List Segment} {target : Path}
    (hleading : p.leading = false) (hbehind : p.behindSteps = head :: rest)
    (htarget : r.lookup head.ident.text = some target) :
    p.relocateHead r = .mk target.leading (target.segments ++ head :: rest) := by
  rw [behindSteps] at hbehind
  rw [relocateHead, if_neg (by simp [hleading])]
  simp only [hbehind, htarget]

theorem exists_lookup (h : p.beginsWith r.names = true) : p.leading = false ∧
    ∃ head rest target, p.behindSteps = head :: rest ∧ r.lookup head.ident.text = some target := by
  obtain ⟨hleading, head, rest, hbehind, hname⟩ := beginsWith_iff.mp h
  obtain ⟨target, htarget⟩ := Option.isSome_iff_exists.mp (mem_keys_iff_lookup.mp hname)
  exact ⟨hleading, head, rest, target, hbehind, htarget⟩

/-- A path that begins with one of the names is put behind one of the paths found. -/
theorem exists_relocateHead (h : p.beginsWith r.names = true) : ∃ e ∈ r,
    p.relocateHead r = .mk e.2.leading (e.2.segments ++ p.behindSteps) := by
  obtain ⟨hleading, head, rest, target, hbehind, htarget⟩ := exists_lookup h
  exact ⟨_, mem_of_lookup htarget, hbehind ▸ relocateHead_of_lookup hleading hbehind htarget⟩

/-- Any other path stays. -/
theorem relocateHead_of_not_beginsWith (h : p.beginsWith r.names = false) :
    p.relocateHead r = p := by
  rw [relocateHead]
  split
  · rfl
  · next hleading =>
    dsimp only
    split
    · rfl
    · next head rest hbehind =>
      have hname : head.ident.text ∉ r.names := fun hname =>
        Bool.false_ne_true (h.symm.trans (beginsWith_iff.mpr
          ⟨Bool.eq_false_iff.mpr hleading, head, rest, hbehind, hname⟩))
      rw [Option.not_isSome_iff_eq_none.mp (mt mem_keys_iff_lookup.mpr hname)]

/-- A path that has been relocated begins with none of the names. -/
theorem not_beginsWith_relocateHead (hr : r.IsRooted) (p : Path) :
    (p.relocateHead r).beginsWith r.names = false := by
  cases h : p.beginsWith r.names with
  | false => rw [relocateHead_of_not_beginsWith h, h]
  | true =>
    obtain ⟨e, he, hp⟩ := exists_relocateHead h
    rw [hp, Bool.eq_false_iff]
    intro hbegins
    obtain ⟨hleading, first, behind, hfirst, hname⟩ := beginsWith_iff.mp hbegins
    rcases hr.targets e he with hl | hc
    · exact Bool.false_ne_true (hleading.symm.trans hl)
    · obtain ⟨names, hnames⟩ := List.head?_eq_some_iff.mp hc
      obtain ⟨s, ss, hs, htext, -⟩ := List.map_eq_cons_iff.mp hnames
      rw [behindSteps, segments, hs, List.cons_append,
        List.dropWhile_cons_of_neg (by rw [htext]; decide)] at hfirst
      rw [← (List.cons.inj hfirst).1, htext] at hname
      exact hr.crate hname

/-- Changing types and relocating the first name do not meet where the paths found are plain. -/
theorem mapTypes_relocateHead (hr : r.IsPlain) (p : Path) :
    (p.relocateHead r).mapTypes f = (p.mapTypes f).relocateHead r := by
  cases h : p.beginsWith r.names with
  | false =>
    rw [relocateHead_of_not_beginsWith h,
      relocateHead_of_not_beginsWith ((beginsWith_mapTypes p).trans h)]
  | true =>
    obtain ⟨hleading, head, rest, target, hbehind, htarget⟩ := exists_lookup h
    have hbehind' : (p.mapTypes f).behindSteps = head.mapTypes f :: rest.map (·.mapTypes f) := by
      rw [behindSteps_mapTypes, hbehind, List.map_cons]
    have hplain := mapSegments_of_isPlain f (hr _ (mem_of_lookup htarget))
    rw [mapSegments_eq] at hplain
    rw [relocateHead_of_lookup hleading hbehind htarget, mapTypes_mk, List.map_append, hplain,
      List.map_cons, relocateHead_of_lookup ((leading_mapTypes p).trans hleading) hbehind']
    rwa [Segment.ident_mapTypes]

end Path

/-! ## The types of relocated trees -/

/-- A relocated path holds the types of the segments that are kept. -/
theorem segmentTypes_relocateHead (hr : r.IsPlain) (p : Path) :
    (segmentTypes [] (p.relocateHead r).segments).flatten =
      ((segmentTypes [] p.segments).drop (p.steps r.names)).flatten := by
  cases h : p.beginsWith r.names with
  | false =>
    rw [Path.relocateHead_of_not_beginsWith h, Path.steps, h]
    rfl
  | true =>
    obtain ⟨e, he, hp⟩ := Path.exists_relocateHead h
    have hnone : (segmentTypes [] e.2.segments).flatten = [] := by
      rw [segmentTypes_eq, List.flatten_eq_nil_iff]
      intro ts hts
      obtain ⟨s, hs, rfl⟩ := List.mem_map.mp hts
      rw [Segment.eq_mk_of_isPlain (List.all_eq_true.mp (hr e he) s hs)]
      rfl
    rw [hp, Path.segments, segmentTypes_eq, List.map_append, List.flatten_append,
      ← segmentTypes_eq, hnone, segmentTypes_eq, ← List.map_drop, Path.drop_steps h]
    rfl

/-- What a type path holds when its segments have been relocated. -/
theorem Path.inner_relocate (hr : r.IsPlain) (p : Path)
    (h : segmentTypes [] (mapSegments (Ty.relocateHead r) p.segments) =
      (segmentTypes r.names p.segments).map (List.map (Ty.relocate r))) :
    (segmentTypes [] ((p.mapTypes (Ty.relocateHead r)).relocateHead r).segments).flatten =
      ((segmentTypes r.names p.segments).drop (p.steps r.names)).flatten.map (Ty.relocate r) := by
  rw [segmentTypes_relocateHead hr, steps_mapTypes, segments_mapTypes, ← mapSegments_eq, h,
    ← List.map_drop, List.map_flatten]

theorem append_relocate {ts ts' us us' : List Ty} (h : ts' = ts.map (Ty.relocate r))
    (h' : us' = us.map (Ty.relocate r)) : ts' ++ us' = (ts ++ us).map (Ty.relocate r) := by
  rw [h, h', List.map_append]

theorem flatMap_relocate {α : Type} {change : α → α} {types types' : α → List Ty}
    (h : ∀ a, types (change a) = (types' a).map (Ty.relocate r)) (as : List α) :
    (as.map change).flatMap types = (as.flatMap types').map (Ty.relocate r) := by
  rw [List.flatMap_map, List.map_flatMap]
  exact List.flatMap_congr fun a _ => h a

section

-- Only the paths of types ask for it, but all parts are proved together.
set_option linter.unusedSectionVars false

variable (hr : r.IsPlain)
include hr

mutual

theorem Mark.types_relocate (m : Mark) :
    (m.mapTypes (Ty.relocateHead r)).types [] = (m.types r.names).map (Ty.relocate r) := by
  cases m with
  | mk tokens value => exact optionalExprTypes_relocate value

theorem marksTypes_relocate : (ms : List Mark) →
    marksTypes [] (mapMarks (Ty.relocateHead r) ms) = (marksTypes r.names ms).map (Ty.relocate r)
  | [] => rfl
  | m :: rest => append_relocate m.types_relocate (marksTypes_relocate rest)

theorem Path.types_relocate (p : Path) :
    (p.mapTypes (Ty.relocateHead r)).types [] = (p.types r.names).map (Ty.relocate r) := by
  cases p with
  | mk leading segments =>
    rw [Path.mapTypes, Path.types, segmentTypes_relocate segments, ← List.map_flatten]
    rfl

theorem segmentTypes_relocate : (ss : List Segment) →
    segmentTypes [] (mapSegments (Ty.relocateHead r) ss) =
      (segmentTypes r.names ss).map (List.map (Ty.relocate r))
  | [] => rfl
  | s :: rest => congrArg₂ List.cons s.types_relocate (segmentTypes_relocate rest)

theorem Segment.types_relocate (s : Segment) :
    (s.mapTypes (Ty.relocateHead r)).types [] = (s.types r.names).map (Ty.relocate r) := by
  cases s with
  | mk ident args => exact args.types_relocate

theorem PathArgs.types_relocate (a : PathArgs) :
    (a.mapTypes (Ty.relocateHead r)).types [] = (a.types r.names).map (Ty.relocate r) := by
  cases a <;> simp only [PathArgs.mapTypes, PathArgs.types, List.map_append, List.map_nil,
    genericArgsTypes_relocate, typesOf_relocate, optionalTypes_relocate]

theorem genericArgsTypes_relocate : (as : List GenericArg) →
    genericArgsTypes [] (mapGenericArgs (Ty.relocateHead r) as) =
      (genericArgsTypes r.names as).map (Ty.relocate r)
  | [] => rfl
  | a :: rest => append_relocate a.types_relocate (genericArgsTypes_relocate rest)

theorem GenericArg.types_relocate (a : GenericArg) :
    (a.mapTypes (Ty.relocateHead r)).types [] = (a.types r.names).map (Ty.relocate r) := by
  cases a <;> simp only [GenericArg.mapTypes, GenericArg.types, List.map_append, List.map_nil,
    Ty.types_relocate, Expr.types_relocate, PathArgs.types_relocate,
    boundsTypes_relocate]

theorem genericParamsTypes_relocate : (ps : List GenericParam) →
    genericParamsTypes [] (mapGenericParams (Ty.relocateHead r) ps) =
      (genericParamsTypes r.names ps).map (Ty.relocate r)
  | [] => rfl
  | p :: rest => append_relocate p.types_relocate (genericParamsTypes_relocate rest)

theorem GenericParam.types_relocate (p : GenericParam) :
    (p.mapTypes (Ty.relocateHead r)).types [] = (p.types r.names).map (Ty.relocate r) := by
  cases p <;> simp only [GenericParam.mapTypes, GenericParam.types, List.map_append,
    marksTypes_relocate, boundsTypes_relocate, optionalTypes_relocate,
    Ty.types_relocate, optionalExprTypes_relocate]

theorem Quantifier.types_relocate (q : Quantifier) :
    (q.mapTypes (Ty.relocateHead r)).types [] = (q.types r.names).map (Ty.relocate r) := by
  cases q with
  | none => rfl
  | forAll params trailing => exact genericParamsTypes_relocate params

theorem optionalTypes_relocate : (o : Option Ty) →
    optionalTypes [] (mapOptionalType (Ty.relocateHead r) o) =
      (optionalTypes r.names o).map (Ty.relocate r)
  | none => rfl
  | some t => t.types_relocate

theorem typesOf_relocate : (ts : List Ty) →
    typesOf [] (mapTypesOf (Ty.relocateHead r) ts) = (typesOf r.names ts).map (Ty.relocate r)
  | [] => rfl
  | t :: rest => append_relocate t.types_relocate (typesOf_relocate rest)

theorem Ty.types_relocate (t : Ty) :
    t.mapTypes (Ty.relocateHead r) :: (t.mapTypes (Ty.relocateHead r)).inner [] =
      (t :: t.inner r.names).map (Ty.relocate r) := by
  refine congrArg (t.relocate r :: ·) ?_
  cases t with
  | path p =>
    rw [Ty.mapTypes, Ty.relocateHead, Ty.inner_path, Ty.inner_path, Path.steps_nil, List.drop_zero]
    obtain ⟨leading, segments⟩ := p
    exact Path.inner_relocate hr _ (segmentTypes_relocate segments)
  | applied p args =>
    rw [Ty.mapTypes, Ty.relocateHead, Ty.inner_applied, Ty.inner_applied, Path.steps_nil,
      List.drop_zero]
    obtain ⟨leading, segments⟩ := p
    exact append_relocate (Path.inner_relocate hr _ (segmentTypes_relocate segments))
      (typesOf_relocate args)
  | _ =>
    simp only [Ty.mapTypes, Ty.relocateHead, Ty.inner, List.map_append, List.map_nil,
      Ty.types_relocate, Path.types_relocate, Expr.types_relocate, typesOf_relocate,
      Quantifier.types_relocate, inputsTypes_relocate, variadicTypes_relocate,
      optionalTypes_relocate, boundsTypes_relocate]

theorem variadicTypes_relocate : (v : Option Variadic) →
    variadicTypes [] (mapVariadic (Ty.relocateHead r) v) =
      (variadicTypes r.names v).map (Ty.relocate r)
  | none => rfl
  | some (.mk marks _ _) => marksTypes_relocate marks

theorem inputsTypes_relocate : (is : List FunctionInput) →
    inputsTypes [] (mapInputs (Ty.relocateHead r) is) = (inputsTypes r.names is).map (Ty.relocate r)
  | [] => rfl
  | i :: rest => append_relocate i.types_relocate (inputsTypes_relocate rest)

theorem FunctionInput.types_relocate (i : FunctionInput) :
    (i.mapTypes (Ty.relocateHead r)).types [] = (i.types r.names).map (Ty.relocate r) := by
  cases i with
  | mk marks name t => exact append_relocate (marksTypes_relocate marks) t.types_relocate

theorem boundsTypes_relocate : (bs : List Bound) →
    boundsTypes [] (mapBounds (Ty.relocateHead r) bs) = (boundsTypes r.names bs).map (Ty.relocate r)
  | [] => rfl
  | b :: rest => append_relocate b.types_relocate (boundsTypes_relocate rest)

theorem Bound.types_relocate (b : Bound) :
    (b.mapTypes (Ty.relocateHead r)).types [] = (b.types r.names).map (Ty.relocate r) := by
  cases b <;> simp only [Bound.mapTypes, Bound.types, List.map_append, List.map_nil,
    Quantifier.types_relocate, Path.types_relocate]

theorem exprsTypes_relocate : (es : List Expr) →
    exprsTypes [] (mapExprs (Ty.relocateHead r) es) = (exprsTypes r.names es).map (Ty.relocate r)
  | [] => rfl
  | e :: rest => append_relocate e.types_relocate (exprsTypes_relocate rest)

theorem optionalExprTypes_relocate : (o : Option Expr) →
    optionalExprTypes [] (mapOptionalExpr (Ty.relocateHead r) o) =
      (optionalExprTypes r.names o).map (Ty.relocate r)
  | none => rfl
  | some e => e.types_relocate

theorem Expr.types_relocate (e : Expr) :
    (e.mapTypes (Ty.relocateHead r)).types [] = (e.types r.names).map (Ty.relocate r) := by
  cases e <;> simp only [Expr.mapTypes, Expr.types, List.map_append, List.map_nil,
    Path.types_relocate, PathArgs.types_relocate, Quantifier.types_relocate,
    Ty.types_relocate, typesOf_relocate, optionalTypes_relocate, marksTypes_relocate,
    Expr.types_relocate, exprsTypes_relocate, optionalExprTypes_relocate,
    Pattern.types_relocate, patternsTypes_relocate, statementsTypes_relocate]

theorem patternsTypes_relocate : (ps : List Pattern) →
    patternsTypes [] (mapPatterns (Ty.relocateHead r) ps) =
      (patternsTypes r.names ps).map (Ty.relocate r)
  | [] => rfl
  | p :: rest => append_relocate p.types_relocate (patternsTypes_relocate rest)

theorem Pattern.types_relocate (p : Pattern) :
    (p.mapTypes (Ty.relocateHead r)).types [] = (p.types r.names).map (Ty.relocate r) := by
  cases p <;> simp only [Pattern.mapTypes, Pattern.types, List.map_append, List.map_nil,
    Ty.types_relocate, Expr.types_relocate, Pattern.types_relocate,
    patternsTypes_relocate, marksTypes_relocate, optionalMarksTypes_relocate]

theorem optionalMarksTypes_relocate : (o : Option (List Mark)) →
    optionalMarksTypes [] (mapOptionalMarks (Ty.relocateHead r) o) =
      (optionalMarksTypes r.names o).map (Ty.relocate r)
  | none => rfl
  | some marks => marksTypes_relocate marks

theorem statementsTypes_relocate : (ss : List Statement) →
    statementsTypes [] (mapStatements (Ty.relocateHead r) ss) =
      (statementsTypes r.names ss).map (Ty.relocate r)
  | [] => rfl
  | s :: rest => append_relocate s.types_relocate (statementsTypes_relocate rest)

theorem Statement.types_relocate (s : Statement) :
    (s.mapTypes (Ty.relocateHead r)).types [] = (s.types r.names).map (Ty.relocate r) := by
  cases s <;> simp only [Statement.mapTypes, Statement.types, List.map_append, List.map_nil,
    Mark.types_relocate, marksTypes_relocate, Path.types_relocate, Expr.types_relocate,
    optionalExprTypes_relocate, Pattern.types_relocate, partsTypes_relocate]

theorem partsTypes_relocate : (ps : List Part) →
    partsTypes [] (mapParts (Ty.relocateHead r) ps) = (partsTypes r.names ps).map (Ty.relocate r)
  | [] => rfl
  | p :: rest => append_relocate p.types_relocate (partsTypes_relocate rest)

theorem Part.types_relocate (p : Part) :
    (p.mapTypes (Ty.relocateHead r)).types [] = (p.types r.names).map (Ty.relocate r) := by
  cases p <;> simp only [Part.mapTypes, Part.types, marksTypes_relocate,
    GenericParam.types_relocate, Quantifier.types_relocate, Path.types_relocate,
    Ty.types_relocate, Bound.types_relocate, Expr.types_relocate,
    Pattern.types_relocate, statementsTypes_relocate]

end

theorem Function.types_relocate (f : Function) :
    (f.mapTypes (Ty.relocateHead r)).types [] = (f.types r.names).map (Ty.relocate r) :=
  append_relocate (append_relocate
    (flatMap_relocate (fun p : Parameter => p.type.types_relocate hr) f.parameters)
    (f.output.types_relocate hr)) (statementsTypes_relocate hr f.body)

theorem Constant.types_relocate (c : Constant) :
    (c.mapTypes (Ty.relocateHead r)).types [] = (c.types r.names).map (Ty.relocate r) :=
  append_relocate (c.type.types_relocate hr) (c.value.types_relocate hr)

mutual

theorem Item.types_relocate (i : Item) :
    (i.mapTypes (Ty.relocateHead r)).types [] = (i.types r.names).map (Ty.relocate r) := by
  cases i with
  | module attributes name items => exact itemsTypes_relocate items
  | struct attributes name fields =>
    exact flatMap_relocate (fun field => field.type.types_relocate hr) fields
  | enum attributes name variants =>
    exact flatMap_relocate (fun v => v.discriminant.types_relocate hr) variants
  | implementation self constant functions =>
    rw [Item.mapTypes, Item.types, Item.types]
    refine append_relocate (append_relocate (self.types_relocate hr) ?_)
      (flatMap_relocate (Function.types_relocate hr) functions)
    rw [Option.toList_map]
    exact flatMap_relocate (Constant.types_relocate hr) constant.toList
  | other parts assemble => exact partsTypes_relocate hr parts
  | _ => rfl

theorem itemsTypes_relocate : (is : List Item) →
    itemsTypes [] (mapItems (Ty.relocateHead r) is) = (itemsTypes r.names is).map (Ty.relocate r)
  | [] => rfl
  | i :: rest => append_relocate i.types_relocate (itemsTypes_relocate rest)

end

/-- A relocated file holds the relocated types, in the same order. -/
theorem File.types_relocate (f : File) :
    (f.relocate r).types [] = (f.types r.names).map (Ty.relocate r) := by
  rw [File.relocate_eq_mapTypes]
  exact itemsTypes_relocate hr f.items

end

/-! ## What relocation leaves as it is -/

/-- Changing types makes no difference between a path and what it is relocated to. -/
def IgnoresRelocation (r : Relocation) (f : Ty → Ty) : Prop :=
  ∀ t, f (t.relocateHead r) = f t

section

set_option linter.unusedSectionVars false

variable (hr : r.IsPlain) (hf : IgnoresRelocation r f)
include hr hf

mutual

theorem Mark.mapTypes_relocate (m : Mark) :
    (m.mapTypes (Ty.relocateHead r)).mapTypes f = m.mapTypes f := by
  cases m with
  | mk tokens value => exact congrArg (Mark.mk tokens) (mapOptionalExpr_relocate value)

theorem mapMarks_relocate : (ms : List Mark) →
    mapMarks f (mapMarks (Ty.relocateHead r) ms) = mapMarks f ms
  | [] => rfl
  | m :: rest => congrArg₂ List.cons m.mapTypes_relocate (mapMarks_relocate rest)

theorem Path.mapTypes_relocate (p : Path) :
    (p.mapTypes (Ty.relocateHead r)).mapTypes f = p.mapTypes f := by
  cases p with
  | mk leading segments => exact congrArg (Path.mk leading) (mapSegments_relocate segments)

theorem mapSegments_relocate : (ss : List Segment) →
    mapSegments f (mapSegments (Ty.relocateHead r) ss) = mapSegments f ss
  | [] => rfl
  | s :: rest => congrArg₂ List.cons s.mapTypes_relocate (mapSegments_relocate rest)

theorem Segment.mapTypes_relocate (s : Segment) :
    (s.mapTypes (Ty.relocateHead r)).mapTypes f = s.mapTypes f := by
  cases s with
  | mk ident args => exact congrArg (Segment.mk ident) args.mapTypes_relocate

theorem PathArgs.mapTypes_relocate (a : PathArgs) :
    (a.mapTypes (Ty.relocateHead r)).mapTypes f = a.mapTypes f := by
  cases a <;> simp only [PathArgs.mapTypes, mapGenericArgs_relocate,
    mapTypesOf_relocate, mapOptionalType_relocate]

theorem mapGenericArgs_relocate : (as : List GenericArg) →
    mapGenericArgs f (mapGenericArgs (Ty.relocateHead r) as) = mapGenericArgs f as
  | [] => rfl
  | a :: rest => congrArg₂ List.cons a.mapTypes_relocate (mapGenericArgs_relocate rest)

theorem GenericArg.mapTypes_relocate (a : GenericArg) :
    (a.mapTypes (Ty.relocateHead r)).mapTypes f = a.mapTypes f := by
  cases a <;> simp only [GenericArg.mapTypes, Ty.mapTypes_relocate,
    Expr.mapTypes_relocate, PathArgs.mapTypes_relocate, mapBounds_relocate]

theorem mapGenericParams_relocate : (ps : List GenericParam) →
    mapGenericParams f (mapGenericParams (Ty.relocateHead r) ps) = mapGenericParams f ps
  | [] => rfl
  | p :: rest => congrArg₂ List.cons p.mapTypes_relocate (mapGenericParams_relocate rest)

theorem GenericParam.mapTypes_relocate (p : GenericParam) :
    (p.mapTypes (Ty.relocateHead r)).mapTypes f = p.mapTypes f := by
  cases p <;> simp only [GenericParam.mapTypes, mapMarks_relocate, mapBounds_relocate,
    mapOptionalType_relocate, Ty.mapTypes_relocate, mapOptionalExpr_relocate]

theorem Quantifier.mapTypes_relocate (q : Quantifier) :
    (q.mapTypes (Ty.relocateHead r)).mapTypes f = q.mapTypes f := by
  cases q with
  | none => rfl
  | forAll params trailing =>
    simp only [Quantifier.mapTypes, mapGenericParams_relocate params]

theorem mapOptionalType_relocate : (o : Option Ty) →
    mapOptionalType f (mapOptionalType (Ty.relocateHead r) o) = mapOptionalType f o
  | none => rfl
  | some t => congrArg some t.mapTypes_relocate

theorem mapTypesOf_relocate : (ts : List Ty) →
    mapTypesOf f (mapTypesOf (Ty.relocateHead r) ts) = mapTypesOf f ts
  | [] => rfl
  | t :: rest => congrArg₂ List.cons t.mapTypes_relocate (mapTypesOf_relocate rest)

theorem Ty.mapTypes_relocate (t : Ty) :
    (t.mapTypes (Ty.relocateHead r)).mapTypes f = t.mapTypes f := by
  cases t with
  | path p =>
    rw [Ty.mapTypes, Ty.relocateHead, Ty.mapTypes, Path.mapTypes_relocateHead hr,
      p.mapTypes_relocate]
    exact hf (.path (p.mapTypes f))
  | applied p args =>
    rw [Ty.mapTypes, Ty.relocateHead, Ty.mapTypes, Path.mapTypes_relocateHead hr,
      p.mapTypes_relocate, mapTypesOf_relocate args]
    exact hf (.applied (p.mapTypes f) (mapTypesOf f args))
  | _ =>
    simp only [Ty.mapTypes, Ty.relocateHead, Ty.mapTypes_relocate,
      Path.mapTypes_relocate, Expr.mapTypes_relocate, mapTypesOf_relocate,
      Quantifier.mapTypes_relocate, mapInputs_relocate, mapVariadic_relocate,
      mapOptionalType_relocate, mapBounds_relocate]

theorem mapVariadic_relocate :
    (v : Option Variadic) → mapVariadic f (mapVariadic (Ty.relocateHead r) v) = mapVariadic f v
  | none => rfl
  | some (.mk marks name trailing) =>
    congrArg (fun marks => some (Variadic.mk marks name trailing)) (mapMarks_relocate marks)

theorem mapInputs_relocate : (is : List FunctionInput) →
    mapInputs f (mapInputs (Ty.relocateHead r) is) = mapInputs f is
  | [] => rfl
  | i :: rest => congrArg₂ List.cons i.mapTypes_relocate (mapInputs_relocate rest)

theorem FunctionInput.mapTypes_relocate (i : FunctionInput) :
    (i.mapTypes (Ty.relocateHead r)).mapTypes f = i.mapTypes f := by
  cases i with
  | mk marks name t =>
    simp only [FunctionInput.mapTypes, mapMarks_relocate marks, t.mapTypes_relocate]

theorem mapBounds_relocate : (bs : List Bound) →
    mapBounds f (mapBounds (Ty.relocateHead r) bs) = mapBounds f bs
  | [] => rfl
  | b :: rest => congrArg₂ List.cons b.mapTypes_relocate (mapBounds_relocate rest)

theorem Bound.mapTypes_relocate (b : Bound) :
    (b.mapTypes (Ty.relocateHead r)).mapTypes f = b.mapTypes f := by
  cases b <;> simp only [Bound.mapTypes, Quantifier.mapTypes_relocate,
    Path.mapTypes_relocate]

theorem mapExprs_relocate : (es : List Expr) →
    mapExprs f (mapExprs (Ty.relocateHead r) es) = mapExprs f es
  | [] => rfl
  | e :: rest => congrArg₂ List.cons e.mapTypes_relocate (mapExprs_relocate rest)

theorem mapOptionalExpr_relocate : (o : Option Expr) →
    mapOptionalExpr f (mapOptionalExpr (Ty.relocateHead r) o) = mapOptionalExpr f o
  | none => rfl
  | some e => congrArg some e.mapTypes_relocate

theorem Expr.mapTypes_relocate (e : Expr) :
    (e.mapTypes (Ty.relocateHead r)).mapTypes f = e.mapTypes f := by
  cases e <;> simp only [Expr.mapTypes, Path.mapTypes_relocate,
    PathArgs.mapTypes_relocate, Quantifier.mapTypes_relocate,
    Ty.mapTypes_relocate, mapTypesOf_relocate, mapOptionalType_relocate,
    mapMarks_relocate, Expr.mapTypes_relocate, mapExprs_relocate,
    mapOptionalExpr_relocate, Pattern.mapTypes_relocate, mapPatterns_relocate,
    mapStatements_relocate]

theorem mapPatterns_relocate : (ps : List Pattern) →
    mapPatterns f (mapPatterns (Ty.relocateHead r) ps) = mapPatterns f ps
  | [] => rfl
  | p :: rest => congrArg₂ List.cons p.mapTypes_relocate (mapPatterns_relocate rest)

theorem Pattern.mapTypes_relocate (p : Pattern) :
    (p.mapTypes (Ty.relocateHead r)).mapTypes f = p.mapTypes f := by
  cases p <;> simp only [Pattern.mapTypes, Ty.mapTypes_relocate,
    Expr.mapTypes_relocate, Pattern.mapTypes_relocate, mapPatterns_relocate,
    mapMarks_relocate, mapOptionalMarks_relocate]

theorem mapOptionalMarks_relocate : (o : Option (List Mark)) →
    mapOptionalMarks f (mapOptionalMarks (Ty.relocateHead r) o) = mapOptionalMarks f o
  | none => rfl
  | some marks => congrArg some (mapMarks_relocate marks)

theorem mapStatements_relocate : (ss : List Statement) →
    mapStatements f (mapStatements (Ty.relocateHead r) ss) = mapStatements f ss
  | [] => rfl
  | s :: rest => congrArg₂ List.cons s.mapTypes_relocate (mapStatements_relocate rest)

theorem Statement.mapTypes_relocate (s : Statement) :
    (s.mapTypes (Ty.relocateHead r)).mapTypes f = s.mapTypes f := by
  cases s <;> simp only [Statement.mapTypes, Mark.mapTypes_relocate, mapMarks_relocate,
    Path.mapTypes_relocate, Expr.mapTypes_relocate, mapOptionalExpr_relocate,
    Pattern.mapTypes_relocate, mapParts_relocate]

theorem mapParts_relocate : (ps : List Part) →
    mapParts f (mapParts (Ty.relocateHead r) ps) = mapParts f ps
  | [] => rfl
  | p :: rest => congrArg₂ List.cons p.mapTypes_relocate (mapParts_relocate rest)

theorem Part.mapTypes_relocate (p : Part) :
    (p.mapTypes (Ty.relocateHead r)).mapTypes f = p.mapTypes f := by
  cases p <;> simp only [Part.mapTypes, mapMarks_relocate,
    GenericParam.mapTypes_relocate, Quantifier.mapTypes_relocate,
    Path.mapTypes_relocate, Ty.mapTypes_relocate, Bound.mapTypes_relocate,
    Expr.mapTypes_relocate, Pattern.mapTypes_relocate, mapStatements_relocate]

end

theorem Function.mapTypes_relocate (fn : Function) :
    (fn.mapTypes (Ty.relocateHead r)).mapTypes f = fn.mapTypes f := by
  simp only [Function.mapTypes, List.map_map, Function.comp_def, Ty.mapTypes_relocate hr hf,
    mapStatements_relocate hr hf]

mutual

theorem Item.mapTypes_relocate (i : Item) :
    (i.mapTypes (Ty.relocateHead r)).mapTypes f = i.mapTypes f := by
  cases i <;> simp only [Item.mapTypes, mapItems_relocate, List.map_map, Option.map_map,
    Function.comp_def, StructField.mapTypes, Ty.mapTypes_relocate hr hf, Variant.mapTypes,
    Expr.mapTypes_relocate hr hf, Function.mapTypes_relocate hr hf, Constant.mapTypes,
    mapParts_relocate hr hf]

theorem mapItems_relocate : (is : List Item) →
    mapItems f (mapItems (Ty.relocateHead r) is) = mapItems f is
  | [] => rfl
  | i :: rest => congrArg₂ List.cons i.mapTypes_relocate (mapItems_relocate rest)

end

/-- A file stays as it is up to relocated paths. -/
theorem File.mapTypes_relocate (file : File) :
    (file.relocate r).mapTypes f = file.mapTypes f := by
  rw [File.relocate_eq_mapTypes]
  exact congrArg (File.mk file.docs) (mapItems_relocate hr hf file.items)

end

/-! ### Paths without their names -/

/-- The arguments in a path without the names that they stand behind, and without those that go away
with its steps. -/
def Path.nameless (names : List String) (p : Path) : Path :=
  .mk false (((p.segments.drop (p.steps names)).filter (!·.isPlain)).map fun s => .mk ⟨""⟩ s.args)

/-- A type without its names if it is a path. -/
def Ty.nameless (names : List String) : Ty → Ty
  | .path p => .path (p.nameless names)
  | .applied p args => .applied (p.nameless names) args
  | t => t

theorem Path.nameless_relocateHead (hr : r.IsPlain) (hrooted : r.IsRooted) (p : Path) :
    (p.relocateHead r).nameless r.names = p.nameless r.names := by
  cases h : p.beginsWith r.names with
  | false => rw [relocateHead_of_not_beginsWith h]
  | true =>
    have hstays := not_beginsWith_relocateHead hrooted p
    obtain ⟨e, he, hp⟩ := exists_relocateHead h
    have hplain : e.2.segments.filter (!·.isPlain) = [] := by
      refine List.filter_eq_nil_iff.mpr fun s hs => ?_
      simp [List.all_eq_true.mp (hr e he) s hs]
    have hsteps : (p.relocateHead r).steps r.names = 0 := by
      rw [steps, hstays]
      rfl
    rw [nameless, hsteps, hp, segments, List.drop_zero, List.filter_append, hplain, List.nil_append,
      nameless, drop_steps h]

/-- Without names nothing tells a path from what it is relocated to. -/
theorem Ty.ignoresRelocation_nameless (hr : r.IsPlain) (hrooted : r.IsRooted) :
    IgnoresRelocation r (Ty.nameless r.names) := by
  intro t
  cases t with
  | path p => exact congrArg Ty.path (Path.nameless_relocateHead hr hrooted p)
  | applied p args => exact congrArg (Ty.applied · args) (Path.nameless_relocateHead hr hrooted p)
  | _ => rfl

/-! ## The paths of the types in a file -/

/-- The path that a type is, with arguments behind it or without. -/
def Ty.path? : Ty → Option Path
  | .path p | .applied p _ => some p
  | _ => none

/-- The paths of the types of a file. -/
def File.typePaths (names : List String) (f : File) : List Path :=
  (f.types names).filterMap Ty.path?

theorem Ty.path?_relocate (hr : r.IsPlain) (t : Ty) : (t.relocate r).path? =
    t.path?.map fun p => (p.relocateHead r).mapTypes (Ty.relocateHead r) := by
  cases t with
  | path p | applied p _ => exact congrArg some (Path.mapTypes_relocateHead hr p).symm
  | _ => rfl

theorem File.typePaths_relocate (hr : r.IsPlain) (f : File) : (f.relocate r).typePaths [] =
    (f.typePaths r.names).map fun p => (p.relocateHead r).mapTypes (Ty.relocateHead r) := by
  rw [File.typePaths, File.types_relocate hr, List.filterMap_map, File.typePaths,
    List.map_filterMap]
  exact List.filterMap_congr fun t _ => Ty.path?_relocate hr t

/-- Where no path begins with one of the names nothing is relocated. -/
theorem File.relocate_of_not_beginsWith (f : File)
    (h : ∀ p ∈ f.typePaths [], p.beginsWith r.names = false) : f.relocate r = f := by
  rw [File.relocate_eq_mapTypes]
  refine f.mapTypes_of_fixes fun t ht => ?_
  cases t with
  | path p | applied p _ =>
    have hp := h p (List.mem_filterMap.mpr ⟨_, ht, rfl⟩)
    rw [Ty.relocateHead, Path.relocateHead_of_not_beginsWith hp]
  | _ => rfl

end SchemaBindings.Code
