import SchemaBindings.Code.Tree

/-!
Testing every part of a tree. The inside of a macro is not looked into. The values of attributes
are if the test asks for it, and the items of a body are judged by the results for their parts.
-/

namespace SchemaBindings.Code

/-- A test for each kind of part. -/
structure PartTest where
  type : Ty → Bool := fun _ => true
  bound : Bound → Bool := fun _ => true
  expr : Expr → Bool := fun _ => true
  pattern : Pattern → Bool := fun _ => true
  statement : Statement → Bool := fun _ => true
  /-- Whether the values of attributes are tested. -/
  inMarks : Bool := false
  /-- An item of a body, by the results for its parts. -/
  item : List Bool → (List Written → Written) → Bool := fun _ _ => true

mutual

def Mark.all (test : PartTest) : Mark → Bool
  | .mk _ none => true
  | .mk _ (some e) => !test.inMarks || e.all test

def allMarks (test : PartTest) : List Mark → Bool
  | [] => true
  | m :: rest => m.all test && allMarks test rest

def Path.all (test : PartTest) : Path → Bool
  | .mk _ segments => allSegments test segments

def allSegments (test : PartTest) : List Segment → Bool
  | [] => true
  | s :: rest => s.all test && allSegments test rest

def Segment.all (test : PartTest) : Segment → Bool
  | .mk _ args => args.all test

def PathArgs.all (test : PartTest) : PathArgs → Bool
  | .none => true
  | .angle _ args _ => allGenericArgs test args
  | .callable inputs _ output => allTypes test inputs && allOptionalType test output

def allGenericArgs (test : PartTest) : List GenericArg → Bool
  | [] => true
  | a :: rest => a.all test && allGenericArgs test rest

def GenericArg.all (test : PartTest) : GenericArg → Bool
  | .lifetime _ => true
  | .type t => t.all test
  | .const e => e.all test
  | .assocType _ args t => args.all test && t.all test
  | .assocConst _ args e => args.all test && e.all test
  | .constraint _ args bounds _ => args.all test && allBounds test bounds

def allGenericParams (test : PartTest) : List GenericParam → Bool
  | [] => true
  | p :: rest => p.all test && allGenericParams test rest

def GenericParam.all (test : PartTest) : GenericParam → Bool
  | .lifetime marks _ _ _ => allMarks test marks
  | .type marks _ bounds _ preset =>
    allMarks test marks && allBounds test bounds && allOptionalType test preset
  | .const marks _ t preset => allMarks test marks && t.all test && allOptionalExpr test preset

def Quantifier.all (test : PartTest) : Quantifier → Bool
  | .none => true
  | .forAll params _ => allGenericParams test params

def allOptionalType (test : PartTest) : Option Ty → Bool
  | none => true
  | some t => t.all test

def allTypes (test : PartTest) : List Ty → Bool
  | [] => true
  | t :: rest => t.all test && allTypes test rest

def Ty.all (test : PartTest) : Ty → Bool
  | .path p => test.type (.path p) && p.all test
  | .applied p args => test.type (.applied p args) && p.all test && allTypes test args
  | .qualified self position p =>
    test.type (.qualified self position p) && self.all test && p.all test
  | .reference lifetime isMut t => test.type (.reference lifetime isMut t) && t.all test
  | .pointer isMut t => test.type (.pointer isMut t) && t.all test
  | .slice t => test.type (.slice t) && t.all test
  | .paren t => test.type (.paren t) && t.all test
  | .array t length => test.type (.array t length) && t.all test && length.all test
  | .tuple types trailing => test.type (.tuple types trailing) && allTypes test types
  | .function quantifier isUnsafe abi inputs trailing variadic output =>
    test.type (.function quantifier isUnsafe abi inputs trailing variadic output) &&
      quantifier.all test && allInputs test inputs && allVariadic test variadic &&
      allOptionalType test output
  | .traitObject isDyn bounds trailing =>
    test.type (.traitObject isDyn bounds trailing) && allBounds test bounds
  | .implTrait bounds trailing => test.type (.implTrait bounds trailing) && allBounds test bounds
  | .never => test.type .never
  | .infer => test.type .infer
  | .macroCall p delimiter inner => test.type (.macroCall p delimiter inner)
  | .verbatim tokens => test.type (.verbatim tokens)

def allVariadic (test : PartTest) : Option Variadic → Bool
  | none => true
  | some (.mk marks _ _) => allMarks test marks

def allInputs (test : PartTest) : List FunctionInput → Bool
  | [] => true
  | i :: rest => i.all test && allInputs test rest

def FunctionInput.all (test : PartTest) : FunctionInput → Bool
  | .mk marks _ t => allMarks test marks && t.all test

def allBounds (test : PartTest) : List Bound → Bool
  | [] => true
  | b :: rest => b.all test && allBounds test rest

def Bound.all (test : PartTest) : Bound → Bool
  | .trait inParens isMaybe quantifier p =>
    test.bound (.trait inParens isMaybe quantifier p) && quantifier.all test && p.all test
  | .lifetime name => test.bound (.lifetime name)
  | .captures params trailing => test.bound (.captures params trailing)
  | .verbatim tokens => test.bound (.verbatim tokens)

def allExprs (test : PartTest) : List Expr → Bool
  | [] => true
  | e :: rest => e.all test && allExprs test rest

def allOptionalExpr (test : PartTest) : Option Expr → Bool
  | none => true
  | some e => e.all test

def Expr.all (test : PartTest) : Expr → Bool
  | .literal text => test.expr (.literal text)
  | .path p => test.expr (.path p) && p.all test
  | .applied p args => test.expr (.applied p args) && p.all test && allTypes test args
  | .qualified self position p =>
    test.expr (.qualified self position p) && self.all test && p.all test
  | .bare form => test.expr (.bare form)
  | .unary form e => test.expr (.unary form e) && e.all test
  | .binary form left right =>
    test.expr (.binary form left right) && left.all test && right.all test
  | .list form es trailing => test.expr (.list form es trailing) && allExprs test es
  | .cast e t => test.expr (.cast e t) && e.all test && t.all test
  | .call function args trailing =>
    test.expr (.call function args trailing) && function.all test && allExprs test args
  | .methodCall receiver name typeArgs args trailing =>
    test.expr (.methodCall receiver name typeArgs args trailing) && receiver.all test &&
      typeArgs.all test && allExprs test args
  | .macroCall p delimiter inner => test.expr (.macroCall p delimiter inner)
  | .structure head entries trailing dots rest =>
    test.expr (.structure head entries trailing dots rest) && head.all test &&
      allExprs test entries && allOptionalExpr test rest
  | .entry marks member value =>
    test.expr (.entry marks member value) && allMarks test marks && allOptionalExpr test value
  | .closure quantifier words params trailing output body =>
    test.expr (.closure quantifier words params trailing output body) && quantifier.all test &&
      allPatterns test params && allOptionalType test output && body.all test
  | .block label words body => test.expr (.block label words body) && allStatements test body
  | .conditional condition body otherwise =>
    test.expr (.conditional condition body otherwise) && condition.all test &&
      allStatements test body && allOptionalExpr test otherwise
  | .whileLoop label condition body =>
    test.expr (.whileLoop label condition body) && condition.all test && allStatements test body
  | .forLoop label pattern source body =>
    test.expr (.forLoop label pattern source body) && pattern.all test && source.all test &&
      allStatements test body
  | .choice value inner arms =>
    test.expr (.choice value inner arms) && value.all test && allMarks test inner &&
      allExprs test arms
  | .arm marks pattern guard body comma =>
    test.expr (.arm marks pattern guard body comma) && allMarks test marks && pattern.all test &&
      allOptionalExpr test guard && body.all test
  | .test pattern value => test.expr (.test pattern value) && pattern.all test && value.all test
  | .marked marks e => test.expr (.marked marks e) && allMarks test marks && e.all test
  | .verbatim tokens => test.expr (.verbatim tokens)

def allPatterns (test : PartTest) : List Pattern → Bool
  | [] => true
  | p :: rest => p.all test && allPatterns test rest

def Pattern.all (test : PartTest) : Pattern → Bool
  | .wildcard => test.pattern .wildcard
  | .dots => test.pattern .dots
  | .variable isRef isMut name => test.pattern (.variable isRef isMut name)
  | .alias p inner => test.pattern (.alias p inner) && p.all test && inner.all test
  | .value e => test.pattern (.value e) && e.all test
  | .reference isMut p => test.pattern (.reference isMut p) && p.all test
  | .paren p => test.pattern (.paren p) && p.all test
  | .tuple ps trailing => test.pattern (.tuple ps trailing) && allPatterns test ps
  | .slice ps trailing => test.pattern (.slice ps trailing) && allPatterns test ps
  | .variant head ps trailing =>
    test.pattern (.variant head ps trailing) && head.all test && allPatterns test ps
  | .structure head ps trailing rest =>
    test.pattern (.structure head ps trailing rest) && head.all test && allPatterns test ps &&
      allOptionalMarks test rest
  | .entry marks member p =>
    test.pattern (.entry marks member p) && allMarks test marks && p.all test
  | .alternatives leading ps => test.pattern (.alternatives leading ps) && allPatterns test ps
  | .typed p t => test.pattern (.typed p t) && p.all test && t.all test
  | .marked marks p => test.pattern (.marked marks p) && allMarks test marks && p.all test
  | .verbatim tokens => test.pattern (.verbatim tokens)

def allOptionalMarks (test : PartTest) : Option (List Mark) → Bool
  | none => true
  | some marks => allMarks test marks

def allStatements (test : PartTest) : List Statement → Bool
  | [] => true
  | s :: rest => s.all test && allStatements test rest

def Statement.all (test : PartTest) : Statement → Bool
  | .binding marks pattern value otherwise =>
    test.statement (.binding marks pattern value otherwise) && allMarks test marks &&
      pattern.all test && allOptionalExpr test value && allOptionalExpr test otherwise
  | .effect e => test.statement (.effect e) && e.all test
  | .result e => test.statement (.result e) && e.all test
  | .macroCall marks p delimiter inner semicolon =>
    test.statement (.macroCall marks p delimiter inner semicolon) && allMarks test marks
  | .item parts assemble =>
    test.statement (.item parts assemble) && test.item (partResults test parts) assemble
  | .innerMark m => test.statement (.innerMark m) && m.all test
  | .empty => test.statement .empty

def partResults (test : PartTest) : List Part → List Bool
  | [] => []
  | p :: rest => p.all test :: partResults test rest

def Part.all (test : PartTest) : Part → Bool
  | .marks marks => allMarks test marks
  | .innerMarks marks => allMarks test marks
  | .param p => p.all test
  | .quantifier q => q.all test
  | .path p => p.all test
  | .type t => t.all test
  | .bound b => b.all test
  | .expr e => e.all test
  | .pattern p => p.all test
  | .statements body => allStatements test body

end

end SchemaBindings.Code
