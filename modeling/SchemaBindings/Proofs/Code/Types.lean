import SchemaBindings.Code.Tree.Relocation
import SchemaBindings.Proofs.Code.Paths

/-!
The types of a tree at every depth, in the order in which they are written. What stands in the
arguments of steps goes away with them when the name behind them is relocated. Types there are left
out if the path begins with one of the names that are given.
-/

namespace SchemaBindings.Code

/-! ## Paths that begin with one of some names -/

namespace Path

/-- The segments behind the steps to the enclosing module that a path begins with. -/
def behindSteps (p : Path) : List Segment :=
  p.segments.dropWhile (·.ident.text == "super")

/-- Whether a path does not begin at the root and its first name behind its steps is one of
these. -/
def beginsWith (names : List String) (p : Path) : Bool :=
  !p.leading && p.behindSteps.head?.any (names.contains ·.ident.text)

/-- How many steps go away if these names are relocated. -/
def steps (names : List String) (p : Path) : Nat :=
  if p.beginsWith names then p.segments.length - p.behindSteps.length else 0

end Path

/-! ## Types -/

mutual

def Mark.types (names : List String) : Mark → List Ty
  | .mk _ value => optionalExprTypes names value

def marksTypes (names : List String) : List Mark → List Ty
  | [] => []
  | m :: rest => m.types names ++ marksTypes names rest

/-- The types in the arguments of each of some segments. -/
def segmentTypes (names : List String) : List Segment → List (List Ty)
  | [] => []
  | s :: rest => s.types names :: segmentTypes names rest

def Path.types (names : List String) : Path → List Ty
  | .mk _ segments => (segmentTypes names segments).flatten

def Segment.types (names : List String) : Segment → List Ty
  | .mk _ args => args.types names

def PathArgs.types (names : List String) : PathArgs → List Ty
  | .none => []
  | .angle _ args _ => genericArgsTypes names args
  | .callable inputs _ output => typesOf names inputs ++ optionalTypes names output

def genericArgsTypes (names : List String) : List GenericArg → List Ty
  | [] => []
  | a :: rest => a.types names ++ genericArgsTypes names rest

def GenericArg.types (names : List String) : GenericArg → List Ty
  | .lifetime _ => []
  | .type t => t :: t.inner names
  | .const e => e.types names
  | .assocType _ args t => args.types names ++ t :: t.inner names
  | .assocConst _ args e => args.types names ++ e.types names
  | .constraint _ args bounds _ => args.types names ++ boundsTypes names bounds

def genericParamsTypes (names : List String) : List GenericParam → List Ty
  | [] => []
  | p :: rest => p.types names ++ genericParamsTypes names rest

def GenericParam.types (names : List String) : GenericParam → List Ty
  | .lifetime marks _ _ _ => marksTypes names marks
  | .type marks _ bounds _ preset =>
    marksTypes names marks ++ boundsTypes names bounds ++ optionalTypes names preset
  | .const marks _ t preset =>
    marksTypes names marks ++ t :: t.inner names ++ optionalExprTypes names preset

def Quantifier.types (names : List String) : Quantifier → List Ty
  | .none => []
  | .forAll params _ => genericParamsTypes names params

def optionalTypes (names : List String) : Option Ty → List Ty
  | none => []
  | some t => t :: t.inner names

def typesOf (names : List String) : List Ty → List Ty
  | [] => []
  | t :: rest => t :: t.inner names ++ typesOf names rest

/-- The types within a type. -/
def Ty.inner (names : List String) : Ty → List Ty
  | .path (.mk leading segments) =>
    ((segmentTypes names segments).drop ((Path.mk leading segments).steps names)).flatten
  | .applied (.mk leading segments) args =>
    ((segmentTypes names segments).drop ((Path.mk leading segments).steps names)).flatten ++
      typesOf names args
  | .qualified self _ p => self :: self.inner names ++ p.types names
  | .reference _ _ t | .pointer _ t | .slice t | .paren t => t :: t.inner names
  | .array t length => t :: t.inner names ++ length.types names
  | .tuple types _ => typesOf names types
  | .function quantifier _ _ inputs _ variadic output =>
    quantifier.types names ++ inputsTypes names inputs ++
      variadicTypes names variadic ++ optionalTypes names output
  | .traitObject _ bounds _ | .implTrait bounds _ => boundsTypes names bounds
  | .macroCall p _ _ => p.types names
  | .never | .infer | .verbatim _ => []

def variadicTypes (names : List String) : Option Variadic → List Ty
  | none => []
  | some (.mk marks _ _) => marksTypes names marks

def inputsTypes (names : List String) : List FunctionInput → List Ty
  | [] => []
  | i :: rest => i.types names ++ inputsTypes names rest

def FunctionInput.types (names : List String) : FunctionInput → List Ty
  | .mk marks _ t => marksTypes names marks ++ t :: t.inner names

def boundsTypes (names : List String) : List Bound → List Ty
  | [] => []
  | b :: rest => b.types names ++ boundsTypes names rest

def Bound.types (names : List String) : Bound → List Ty
  | .trait _ _ quantifier p => quantifier.types names ++ p.types names
  | .lifetime _ | .captures .. | .verbatim _ => []

def exprsTypes (names : List String) : List Expr → List Ty
  | [] => []
  | e :: rest => e.types names ++ exprsTypes names rest

def optionalExprTypes (names : List String) : Option Expr → List Ty
  | none => []
  | some e => e.types names

def Expr.types (names : List String) : Expr → List Ty
  | .literal _ | .bare _ | .verbatim _ => []
  | .path p | .macroCall p _ _ => p.types names
  | .applied p args => p.types names ++ typesOf names args
  | .qualified self _ p => self :: self.inner names ++ p.types names
  | .unary _ e => e.types names
  | .binary _ left right => left.types names ++ right.types names
  | .list _ es _ => exprsTypes names es
  | .cast e t => e.types names ++ t :: t.inner names
  | .call function args _ => function.types names ++ exprsTypes names args
  | .methodCall receiver _ typeArgs args _ =>
    receiver.types names ++ typeArgs.types names ++ exprsTypes names args
  | .structure head entries _ _ rest =>
    head.types names ++ exprsTypes names entries ++ optionalExprTypes names rest
  | .entry marks _ value => marksTypes names marks ++ optionalExprTypes names value
  | .closure quantifier _ params _ output body =>
    quantifier.types names ++ patternsTypes names params ++
      optionalTypes names output ++ body.types names
  | .block _ _ body => statementsTypes names body
  | .conditional condition body otherwise =>
    condition.types names ++ statementsTypes names body ++ optionalExprTypes names otherwise
  | .whileLoop _ condition body => condition.types names ++ statementsTypes names body
  | .forLoop _ pattern source body =>
    pattern.types names ++ source.types names ++ statementsTypes names body
  | .choice value inner arms =>
    value.types names ++ marksTypes names inner ++ exprsTypes names arms
  | .arm marks pattern guard body _ =>
    marksTypes names marks ++ pattern.types names ++
      optionalExprTypes names guard ++ body.types names
  | .test pattern value => pattern.types names ++ value.types names
  | .marked marks e => marksTypes names marks ++ e.types names

def patternsTypes (names : List String) : List Pattern → List Ty
  | [] => []
  | p :: rest => p.types names ++ patternsTypes names rest

def Pattern.types (names : List String) : Pattern → List Ty
  | .wildcard | .dots | .variable .. | .verbatim _ => []
  | .alias p inner => p.types names ++ inner.types names
  | .value e => e.types names
  | .reference _ p | .paren p => p.types names
  | .tuple ps _ | .slice ps _ | .alternatives _ ps => patternsTypes names ps
  | .variant head ps _ => head.types names ++ patternsTypes names ps
  | .structure head entries _ rest =>
    head.types names ++ patternsTypes names entries ++ optionalMarksTypes names rest
  | .entry marks _ p => marksTypes names marks ++ p.types names
  | .typed p t => p.types names ++ t :: t.inner names
  | .marked marks p => marksTypes names marks ++ p.types names

def optionalMarksTypes (names : List String) : Option (List Mark) → List Ty
  | none => []
  | some marks => marksTypes names marks

def statementsTypes (names : List String) : List Statement → List Ty
  | [] => []
  | s :: rest => s.types names ++ statementsTypes names rest

def Statement.types (names : List String) : Statement → List Ty
  | .binding marks pattern value otherwise =>
    marksTypes names marks ++ pattern.types names ++
      optionalExprTypes names value ++ optionalExprTypes names otherwise
  | .effect e | .result e => e.types names
  | .macroCall marks p _ _ _ => marksTypes names marks ++ p.types names
  | .item parts _ => partsTypes names parts
  | .innerMark m => m.types names
  | .empty => []

def partsTypes (names : List String) : List Part → List Ty
  | [] => []
  | p :: rest => p.types names ++ partsTypes names rest

def Part.types (names : List String) : Part → List Ty
  | .marks marks | .innerMarks marks => marksTypes names marks
  | .param p => p.types names
  | .quantifier q => q.types names
  | .path p => p.types names
  | .type t => t :: t.inner names
  | .bound b => b.types names
  | .expr e => e.types names
  | .pattern p => p.types names
  | .statements body => statementsTypes names body

end

/-- A type and those within it. -/
def Ty.types (names : List String) (t : Ty) : List Ty :=
  t :: t.inner names

theorem segmentTypes_eq (names : List String) (segments : List Segment) :
    segmentTypes names segments = segments.map (·.types names) := by
  induction segments with
  | nil => rfl
  | cons s rest ih => rw [segmentTypes, ih, List.map_cons]

/-- If no names are given no steps go away. -/
theorem Path.steps_nil (p : Path) : p.steps [] = 0 := by
  simp [steps, beginsWith]

theorem Ty.inner_path (names : List String) (p : Path) : (Ty.path p).inner names =
    ((segmentTypes names p.segments).drop (p.steps names)).flatten := by
  cases p
  rfl

theorem Ty.inner_applied (names : List String) (p : Path) (args : List Ty) :
    (Ty.applied p args).inner names =
      ((segmentTypes names p.segments).drop (p.steps names)).flatten ++ typesOf names args := by
  cases p
  rfl

/-! ## Files -/

def Function.types (names : List String) (f : Function) : List Ty :=
  f.parameters.flatMap (·.type.types names) ++ f.output.types names ++
    statementsTypes names f.body

def Constant.types (names : List String) (c : Constant) : List Ty :=
  c.type.types names ++ c.value.types names

mutual

def Item.types (names : List String) : Item → List Ty
  | .use .. | .moduleFile _ | .unit .. => []
  | .module _ _ items => itemsTypes names items
  | .struct _ _ fields => fields.flatMap (·.type.types names)
  | .enum _ _ variants => variants.flatMap (·.discriminant.types names)
  | .implementation self constant functions =>
    self.types names ++ constant.toList.flatMap (·.types names) ++
      functions.flatMap (·.types names)
  | .other parts _ => partsTypes names parts

def itemsTypes (names : List String) : List Item → List Ty
  | [] => []
  | i :: rest => i.types names ++ itemsTypes names rest

end

def File.types (names : List String) (f : File) : List Ty :=
  itemsTypes names f.items

/-! ### Changing every type -/

def Function.mapTypes (f : Ty → Ty) (fn : Function) : Function :=
  { fn with
    parameters := fn.parameters.map fun p => { p with type := p.type.mapTypes f }
    output := fn.output.mapTypes f
    body := mapStatements f fn.body }

def StructField.mapTypes (f : Ty → Ty) (field : StructField) : StructField :=
  { field with type := field.type.mapTypes f }

def Variant.mapTypes (f : Ty → Ty) (v : Variant) : Variant :=
  { v with discriminant := v.discriminant.mapTypes f }

def Constant.mapTypes (f : Ty → Ty) (c : Constant) : Constant :=
  { c with type := c.type.mapTypes f, value := c.value.mapTypes f }

mutual

def Item.mapTypes (f : Ty → Ty) : Item → Item
  | .use module names => .use module names
  | .moduleFile name => .moduleFile name
  | .module attributes name items => .module attributes name (mapItems f items)
  | .struct attributes name fields => .struct attributes name (fields.map (·.mapTypes f))
  | .unit attributes name => .unit attributes name
  | .enum attributes name variants => .enum attributes name (variants.map (·.mapTypes f))
  | .implementation self constant functions =>
    .implementation (self.mapTypes f) (constant.map (·.mapTypes f)) (functions.map (·.mapTypes f))
  | .other parts assemble => .other (mapParts f parts) assemble

def mapItems (f : Ty → Ty) : List Item → List Item
  | [] => []
  | i :: rest => i.mapTypes f :: mapItems f rest

end

def File.mapTypes (f : Ty → Ty) (file : File) : File :=
  { file with items := mapItems f file.items }

theorem mapStatements_eq (f : Ty → Ty) (ss : List Statement) :
    mapStatements f ss = ss.map (·.mapTypes f) := by
  induction ss with
  | nil => rfl
  | cons s rest ih => rw [mapStatements, ih, List.map_cons]

theorem Function.relocate_eq_mapTypes (r : Relocation) (f : Function) :
    f.relocate r = f.mapTypes (Ty.relocateHead r) := by
  rw [mapTypes, mapStatements_eq]
  rfl

mutual

/-- Items are relocated like trees, by a change of every type. -/
theorem Item.relocate_eq_mapTypes (r : Relocation) (i : Item) :
    i.relocate r = i.mapTypes (Ty.relocateHead r) := by
  cases i with
  | module attributes name items =>
    exact congrArg (Item.module attributes name) (relocateItems_eq_mapItems r items)
  | implementation self constant functions =>
    rw [Item.relocate, Item.mapTypes]
    exact congrArg _ (List.map_congr_left fun f _ => f.relocate_eq_mapTypes r)
  | _ => rfl

theorem relocateItems_eq_mapItems (r : Relocation) :
    (items : List Item) → relocateItems r items = mapItems (Ty.relocateHead r) items
  | [] => rfl
  | i :: rest => congrArg₂ List.cons (i.relocate_eq_mapTypes r) (relocateItems_eq_mapItems r rest)

end

theorem File.relocate_eq_mapTypes (r : Relocation) (f : File) :
    f.relocate r = f.mapTypes (Ty.relocateHead r) :=
  congrArg (File.mk f.docs) (relocateItems_eq_mapItems r f.items)

/-! ## Trees without types that are changed -/

/-- None of the types is changed. -/
def Fixes (f : Ty → Ty) (ts : List Ty) : Prop :=
  ∀ t ∈ ts, f t = t

section

variable {f : Ty → Ty}

theorem fixes_append {ts us : List Ty} : Fixes f (ts ++ us) ↔ Fixes f ts ∧ Fixes f us :=
  List.forall_mem_append

theorem fixes_cons {t : Ty} {ts : List Ty} : Fixes f (t :: ts) ↔ f t = t ∧ Fixes f ts :=
  List.forall_mem_cons

/-- What is listed first and the rest stay if their types do. -/
theorem cons_of_fixes {α : Type} {a a' : α} {as as' : List α} {ts us : List Ty}
    (h : Fixes f (ts ++ us)) (ha : Fixes f ts → a' = a) (has : Fixes f us → as' = as) :
    a' :: as' = a :: as :=
  congrArg₂ List.cons (ha (fixes_append.mp h).1) (has (fixes_append.mp h).2)

/-- The path of a type holds the types of all its segments if no names are given. -/
theorem Path.fixes_of_drop_steps {p : Path}
    (h : Fixes f ((segmentTypes [] p.segments).drop (p.steps [])).flatten) :
    Fixes f (p.types []) := by
  rw [Path.steps_nil, List.drop_zero] at h
  cases p
  exact h

-- The types in a type are changed before it. So it is met as it was, by induction on the tree.
mutual

theorem Mark.mapTypes_of_fixes (m : Mark) (h : Fixes f (m.types [])) : m.mapTypes f = m := by
  cases m with
  | mk tokens value => exact congrArg _ (mapOptionalExpr_of_fixes value h)

theorem mapMarks_of_fixes :
    (ms : List Mark) → Fixes f (marksTypes [] ms) → mapMarks f ms = ms
  | [], _ => rfl
  | m :: rest, h => cons_of_fixes h m.mapTypes_of_fixes (mapMarks_of_fixes rest)

theorem Path.mapTypes_of_fixes (p : Path) (h : Fixes f (p.types [])) : p.mapTypes f = p := by
  cases p with
  | mk leading segments => exact congrArg _ (mapSegments_of_fixes segments h)

theorem mapSegments_of_fixes :
    (ss : List Segment) → Fixes f (segmentTypes [] ss).flatten → mapSegments f ss = ss
  | [], _ => rfl
  | s :: rest, h => cons_of_fixes h s.mapTypes_of_fixes (mapSegments_of_fixes rest)

theorem Segment.mapTypes_of_fixes (s : Segment) (h : Fixes f (s.types [])) :
    s.mapTypes f = s := by
  cases s with
  | mk ident args => exact congrArg _ (args.mapTypes_of_fixes h)

theorem PathArgs.mapTypes_of_fixes (a : PathArgs) (h : Fixes f (a.types [])) :
    a.mapTypes f = a := by
  cases a <;> simp only [PathArgs.types, fixes_append] at h <;>
    simp only [h, PathArgs.mapTypes, mapGenericArgs_of_fixes, mapTypesOf_of_fixes,
      mapOptionalType_of_fixes]

theorem mapGenericArgs_of_fixes :
    (as : List GenericArg) → Fixes f (genericArgsTypes [] as) → mapGenericArgs f as = as
  | [], _ => rfl
  | a :: rest, h => cons_of_fixes h a.mapTypes_of_fixes (mapGenericArgs_of_fixes rest)

theorem GenericArg.mapTypes_of_fixes (a : GenericArg) (h : Fixes f (a.types [])) :
    a.mapTypes f = a := by
  cases a <;> simp only [GenericArg.types, fixes_append] at h <;>
    simp only [h, GenericArg.mapTypes, Ty.mapTypes_of_fixes, Expr.mapTypes_of_fixes,
      PathArgs.mapTypes_of_fixes, mapBounds_of_fixes]

theorem mapGenericParams_of_fixes :
    (ps : List GenericParam) → Fixes f (genericParamsTypes [] ps) → mapGenericParams f ps = ps
  | [], _ => rfl
  | p :: rest, h => cons_of_fixes h p.mapTypes_of_fixes (mapGenericParams_of_fixes rest)

theorem GenericParam.mapTypes_of_fixes (p : GenericParam) (h : Fixes f (p.types [])) :
    p.mapTypes f = p := by
  cases p <;> simp only [GenericParam.types, fixes_append] at h <;>
    simp only [h, GenericParam.mapTypes, mapMarks_of_fixes, mapBounds_of_fixes,
      mapOptionalType_of_fixes, Ty.mapTypes_of_fixes, mapOptionalExpr_of_fixes]

theorem Quantifier.mapTypes_of_fixes (q : Quantifier) (h : Fixes f (q.types [])) :
    q.mapTypes f = q := by
  cases q with
  | none => rfl
  | forAll params trailing => rw [Quantifier.mapTypes, mapGenericParams_of_fixes params h]

theorem mapOptionalType_of_fixes :
    (o : Option Ty) → Fixes f (optionalTypes [] o) → mapOptionalType f o = o
  | none, _ => rfl
  | some t, h => congrArg some (t.mapTypes_of_fixes h)

theorem mapTypesOf_of_fixes :
    (ts : List Ty) → Fixes f (typesOf [] ts) → mapTypesOf f ts = ts
  | [], _ => rfl
  | t :: rest, h => cons_of_fixes h t.mapTypes_of_fixes (mapTypesOf_of_fixes rest)

theorem Ty.mapTypes_of_fixes (t : Ty) (h : Fixes f (t :: t.inner [])) : t.mapTypes f = t := by
  rw [fixes_cons] at h
  obtain ⟨ht, hinner⟩ := h
  cases t with
  | path p =>
    rw [Ty.inner_path] at hinner
    rw [Ty.mapTypes, p.mapTypes_of_fixes (Path.fixes_of_drop_steps hinner), ht]
  | applied p args =>
    rw [Ty.inner_applied, fixes_append] at hinner
    rw [Ty.mapTypes, p.mapTypes_of_fixes (Path.fixes_of_drop_steps hinner.1),
      mapTypesOf_of_fixes args hinner.2, ht]
  | _ =>
    simp only [Ty.inner, fixes_append] at hinner
    simp only [hinner, ht, Ty.mapTypes, Ty.mapTypes_of_fixes, Path.mapTypes_of_fixes,
      Expr.mapTypes_of_fixes, mapTypesOf_of_fixes, Quantifier.mapTypes_of_fixes,
      mapInputs_of_fixes, mapVariadic_of_fixes, mapOptionalType_of_fixes, mapBounds_of_fixes]

theorem mapVariadic_of_fixes :
    (v : Option Variadic) → Fixes f (variadicTypes [] v) → mapVariadic f v = v
  | none, _ => rfl
  | some (.mk marks name trailing), h => by rw [mapVariadic, mapMarks_of_fixes marks h]

theorem mapInputs_of_fixes :
    (is : List FunctionInput) → Fixes f (inputsTypes [] is) → mapInputs f is = is
  | [], _ => rfl
  | i :: rest, h => cons_of_fixes h i.mapTypes_of_fixes (mapInputs_of_fixes rest)

theorem FunctionInput.mapTypes_of_fixes (i : FunctionInput) (h : Fixes f (i.types [])) :
    i.mapTypes f = i := by
  cases i with
  | mk marks name t =>
    obtain ⟨hmarks, ht⟩ := fixes_append.mp h
    rw [FunctionInput.mapTypes, mapMarks_of_fixes marks hmarks, t.mapTypes_of_fixes ht]

theorem mapBounds_of_fixes :
    (bs : List Bound) → Fixes f (boundsTypes [] bs) → mapBounds f bs = bs
  | [], _ => rfl
  | b :: rest, h => cons_of_fixes h b.mapTypes_of_fixes (mapBounds_of_fixes rest)

theorem Bound.mapTypes_of_fixes (b : Bound) (h : Fixes f (b.types [])) : b.mapTypes f = b := by
  cases b <;> simp only [Bound.types, fixes_append] at h <;>
    simp only [h, Bound.mapTypes, Quantifier.mapTypes_of_fixes, Path.mapTypes_of_fixes]

theorem mapExprs_of_fixes :
    (es : List Expr) → Fixes f (exprsTypes [] es) → mapExprs f es = es
  | [], _ => rfl
  | e :: rest, h => cons_of_fixes h e.mapTypes_of_fixes (mapExprs_of_fixes rest)

theorem mapOptionalExpr_of_fixes :
    (o : Option Expr) → Fixes f (optionalExprTypes [] o) → mapOptionalExpr f o = o
  | none, _ => rfl
  | some e, h => congrArg some (e.mapTypes_of_fixes h)

theorem Expr.mapTypes_of_fixes (e : Expr) (h : Fixes f (e.types [])) : e.mapTypes f = e := by
  cases e <;> simp only [Expr.types, fixes_append] at h <;>
    simp only [h, Expr.mapTypes, Path.mapTypes_of_fixes, PathArgs.mapTypes_of_fixes,
      Quantifier.mapTypes_of_fixes, Ty.mapTypes_of_fixes, mapTypesOf_of_fixes,
      mapOptionalType_of_fixes, mapMarks_of_fixes, Expr.mapTypes_of_fixes, mapExprs_of_fixes,
      mapOptionalExpr_of_fixes, Pattern.mapTypes_of_fixes, mapPatterns_of_fixes,
      mapStatements_of_fixes]

theorem mapPatterns_of_fixes :
    (ps : List Pattern) → Fixes f (patternsTypes [] ps) → mapPatterns f ps = ps
  | [], _ => rfl
  | p :: rest, h => cons_of_fixes h p.mapTypes_of_fixes (mapPatterns_of_fixes rest)

theorem Pattern.mapTypes_of_fixes (p : Pattern) (h : Fixes f (p.types [])) :
    p.mapTypes f = p := by
  cases p <;> simp only [Pattern.types, fixes_append] at h <;>
    simp only [h, Pattern.mapTypes, Ty.mapTypes_of_fixes, Expr.mapTypes_of_fixes,
      Pattern.mapTypes_of_fixes, mapPatterns_of_fixes, mapMarks_of_fixes,
      mapOptionalMarks_of_fixes]

theorem mapOptionalMarks_of_fixes :
    (o : Option (List Mark)) → Fixes f (optionalMarksTypes [] o) → mapOptionalMarks f o = o
  | none, _ => rfl
  | some marks, h => congrArg some (mapMarks_of_fixes marks h)

theorem mapStatements_of_fixes :
    (ss : List Statement) → Fixes f (statementsTypes [] ss) → mapStatements f ss = ss
  | [], _ => rfl
  | s :: rest, h => cons_of_fixes h s.mapTypes_of_fixes (mapStatements_of_fixes rest)

theorem Statement.mapTypes_of_fixes (s : Statement) (h : Fixes f (s.types [])) :
    s.mapTypes f = s := by
  cases s <;> simp only [Statement.types, fixes_append] at h <;>
    simp only [h, Statement.mapTypes, Mark.mapTypes_of_fixes, mapMarks_of_fixes,
      Path.mapTypes_of_fixes, Expr.mapTypes_of_fixes, mapOptionalExpr_of_fixes,
      Pattern.mapTypes_of_fixes, mapParts_of_fixes]

theorem mapParts_of_fixes :
    (ps : List Part) → Fixes f (partsTypes [] ps) → mapParts f ps = ps
  | [], _ => rfl
  | p :: rest, h => cons_of_fixes h p.mapTypes_of_fixes (mapParts_of_fixes rest)

theorem Part.mapTypes_of_fixes (p : Part) (h : Fixes f (p.types [])) : p.mapTypes f = p := by
  cases p <;> simp only [Part.types] at h <;>
    simp only [h, Part.mapTypes, mapMarks_of_fixes, GenericParam.mapTypes_of_fixes,
      Quantifier.mapTypes_of_fixes, Path.mapTypes_of_fixes, Ty.mapTypes_of_fixes,
      Bound.mapTypes_of_fixes, Expr.mapTypes_of_fixes, Pattern.mapTypes_of_fixes,
      mapStatements_of_fixes]

end

/-- The same for what has no part in the mutual definition. -/
theorem map_of_fixes {α : Type} {change : α → α} {types : α → List Ty}
    (hone : ∀ a, Fixes f (types a) → change a = a) {as : List α}
    (h : Fixes f (as.flatMap types)) : as.map change = as := by
  refine (List.map_congr_left fun a ha => hone a fun t ht => ?_).trans (List.map_id _)
  exact h t (List.mem_flatMap_of_mem ha ht)

theorem Function.mapTypes_of_fixes (fn : Function) (h : Fixes f (fn.types [])) :
    fn.mapTypes f = fn := by
  obtain ⟨attributes, isAsync, name, receiver, parameters, output, body⟩ := fn
  simp only [Function.types, fixes_append] at h
  obtain ⟨⟨hparameters, houtput⟩, hbody⟩ := h
  have hone (p : Parameter) (hp : Fixes f (p.type.types [])) :
      ({ p with type := p.type.mapTypes f } : Parameter) = p := by
    rw [p.type.mapTypes_of_fixes hp]
  simp only [Function.mapTypes, map_of_fixes hone hparameters, output.mapTypes_of_fixes houtput,
    mapStatements_of_fixes body hbody]

theorem StructField.mapTypes_of_fixes (field : StructField) (h : Fixes f (field.type.types [])) :
    field.mapTypes f = field := by
  rw [StructField.mapTypes, field.type.mapTypes_of_fixes h]

theorem Variant.mapTypes_of_fixes (v : Variant) (h : Fixes f (v.discriminant.types [])) :
    v.mapTypes f = v := by
  rw [Variant.mapTypes, v.discriminant.mapTypes_of_fixes h]

theorem Constant.mapTypes_of_fixes (c : Constant) (h : Fixes f (c.types [])) :
    c.mapTypes f = c := by
  obtain ⟨htype, hvalue⟩ := fixes_append.mp h
  rw [Constant.mapTypes, c.type.mapTypes_of_fixes htype, c.value.mapTypes_of_fixes hvalue]

mutual

theorem Item.mapTypes_of_fixes (i : Item) (h : Fixes f (i.types [])) : i.mapTypes f = i := by
  cases i with
  | module attributes name items =>
    exact congrArg (Item.module attributes name) (mapItems_of_fixes items h)
  | struct attributes name fields =>
    exact congrArg (Item.struct attributes name) (map_of_fixes StructField.mapTypes_of_fixes h)
  | enum attributes name variants =>
    exact congrArg (Item.enum attributes name) (map_of_fixes Variant.mapTypes_of_fixes h)
  | implementation self constant functions =>
    simp only [Item.types, fixes_append] at h
    obtain ⟨⟨hself, hconstant⟩, hfunctions⟩ := h
    have hsame : constant.map (·.mapTypes f) = constant := by
      cases constant with
      | none => rfl
      | some c => exact congrArg some (c.mapTypes_of_fixes (by simpa using hconstant))
    rw [Item.mapTypes, self.mapTypes_of_fixes hself, hsame,
      map_of_fixes Function.mapTypes_of_fixes hfunctions]
  | other parts assemble => exact congrArg (Item.other · assemble) (mapParts_of_fixes parts h)
  | _ => rfl

theorem mapItems_of_fixes :
    (is : List Item) → Fixes f (itemsTypes [] is) → mapItems f is = is
  | [], _ => rfl
  | i :: rest, h => cons_of_fixes h i.mapTypes_of_fixes (mapItems_of_fixes rest)

end

/-- A file stays as it is if none of its types is changed. -/
theorem File.mapTypes_of_fixes (file : File) (h : Fixes f (file.types [])) :
    file.mapTypes f = file :=
  congrArg (File.mk file.docs) (mapItems_of_fixes file.items h)

end

end SchemaBindings.Code
