import SchemaBindings.Code.Tree

/-!
Changing every type in a tree, from the inside out. The inside of a macro and what nothing is known
of are left alone.
-/

namespace SchemaBindings.Code

mutual

def Mark.mapTypes (f : Ty → Ty) : Mark → Mark
  | .mk tokens value => .mk tokens (mapOptionalExpr f value)

def mapMarks (f : Ty → Ty) : List Mark → List Mark
  | [] => []
  | m :: rest => m.mapTypes f :: mapMarks f rest

def Path.mapTypes (f : Ty → Ty) : Path → Path
  | .mk leading segments => .mk leading (mapSegments f segments)

def mapSegments (f : Ty → Ty) : List Segment → List Segment
  | [] => []
  | s :: rest => s.mapTypes f :: mapSegments f rest

def Segment.mapTypes (f : Ty → Ty) : Segment → Segment
  | .mk ident args => .mk ident (args.mapTypes f)

def PathArgs.mapTypes (f : Ty → Ty) : PathArgs → PathArgs
  | .none => .none
  | .angle turbofish args trailing => .angle turbofish (mapGenericArgs f args) trailing
  | .callable inputs trailing output =>
    .callable (mapTypesOf f inputs) trailing (mapOptionalType f output)

def mapGenericArgs (f : Ty → Ty) : List GenericArg → List GenericArg
  | [] => []
  | a :: rest => a.mapTypes f :: mapGenericArgs f rest

def GenericArg.mapTypes (f : Ty → Ty) : GenericArg → GenericArg
  | .lifetime name => .lifetime name
  | .type t => .type (t.mapTypes f)
  | .const e => .const (e.mapTypes f)
  | .assocType ident args t => .assocType ident (args.mapTypes f) (t.mapTypes f)
  | .assocConst ident args e => .assocConst ident (args.mapTypes f) (e.mapTypes f)
  | .constraint ident args bounds trailing =>
    .constraint ident (args.mapTypes f) (mapBounds f bounds) trailing

def mapGenericParams (f : Ty → Ty) : List GenericParam → List GenericParam
  | [] => []
  | p :: rest => p.mapTypes f :: mapGenericParams f rest

def GenericParam.mapTypes (f : Ty → Ty) : GenericParam → GenericParam
  | .lifetime marks name bounds trailing =>
    .lifetime (mapMarks f marks) name bounds trailing
  | .type marks ident bounds trailing preset =>
    .type (mapMarks f marks) ident (mapBounds f bounds) trailing
      (mapOptionalType f preset)
  | .const marks ident t preset =>
    .const (mapMarks f marks) ident (t.mapTypes f) (mapOptionalExpr f preset)

def Quantifier.mapTypes (f : Ty → Ty) : Quantifier → Quantifier
  | .none => .none
  | .forAll params trailing => .forAll (mapGenericParams f params) trailing

def mapOptionalType (f : Ty → Ty) : Option Ty → Option Ty
  | none => none
  | some t => some (t.mapTypes f)

def mapTypesOf (f : Ty → Ty) : List Ty → List Ty
  | [] => []
  | t :: rest => t.mapTypes f :: mapTypesOf f rest

def Ty.mapTypes (f : Ty → Ty) : Ty → Ty
  | .path p => f (.path (p.mapTypes f))
  | .applied p args => f (.applied (p.mapTypes f) (mapTypesOf f args))
  | .qualified self position p => f (.qualified (self.mapTypes f) position (p.mapTypes f))
  | .reference lifetime isMut t => f (.reference lifetime isMut (t.mapTypes f))
  | .pointer isMut t => f (.pointer isMut (t.mapTypes f))
  | .slice t => f (.slice (t.mapTypes f))
  | .array t length => f (.array (t.mapTypes f) (length.mapTypes f))
  | .tuple types trailing => f (.tuple (mapTypesOf f types) trailing)
  | .paren t => f (.paren (t.mapTypes f))
  | .never => f .never
  | .infer => f .infer
  | .function quantifier isUnsafe abi inputs trailing variadic output =>
    f (.function (quantifier.mapTypes f) isUnsafe abi (mapInputs f inputs) trailing
      (mapVariadic f variadic) (mapOptionalType f output))
  | .traitObject isDyn bounds trailing => f (.traitObject isDyn (mapBounds f bounds) trailing)
  | .implTrait bounds trailing => f (.implTrait (mapBounds f bounds) trailing)
  | .macroCall p delimiter inner => f (.macroCall (p.mapTypes f) delimiter inner)
  | .verbatim tokens => f (.verbatim tokens)

def mapVariadic (f : Ty → Ty) : Option Variadic → Option Variadic
  | none => none
  | some (.mk marks name trailing) => some (.mk (mapMarks f marks) name trailing)

def mapInputs (f : Ty → Ty) : List FunctionInput → List FunctionInput
  | [] => []
  | i :: rest => i.mapTypes f :: mapInputs f rest

def FunctionInput.mapTypes (f : Ty → Ty) : FunctionInput → FunctionInput
  | .mk marks name t => .mk (mapMarks f marks) name (t.mapTypes f)

def mapBounds (f : Ty → Ty) : List Bound → List Bound
  | [] => []
  | b :: rest => b.mapTypes f :: mapBounds f rest

def Bound.mapTypes (f : Ty → Ty) : Bound → Bound
  | .lifetime name => .lifetime name
  | .trait inParens isMaybe quantifier p =>
    .trait inParens isMaybe (quantifier.mapTypes f) (p.mapTypes f)
  | .captures params trailing => .captures params trailing
  | .verbatim tokens => .verbatim tokens

def mapExprs (f : Ty → Ty) : List Expr → List Expr
  | [] => []
  | e :: rest => e.mapTypes f :: mapExprs f rest

def mapOptionalExpr (f : Ty → Ty) : Option Expr → Option Expr
  | none => none
  | some e => some (e.mapTypes f)

def Expr.mapTypes (f : Ty → Ty) : Expr → Expr
  | .literal text => .literal text
  | .path p => .path (p.mapTypes f)
  | .applied p args => .applied (p.mapTypes f) (mapTypesOf f args)
  | .qualified self position p => .qualified (self.mapTypes f) position (p.mapTypes f)
  | .bare form => .bare form
  | .unary form e => .unary form (e.mapTypes f)
  | .binary form left right => .binary form (left.mapTypes f) (right.mapTypes f)
  | .list form es trailing => .list form (mapExprs f es) trailing
  | .cast e t => .cast (e.mapTypes f) (t.mapTypes f)
  | .call function args trailing => .call (function.mapTypes f) (mapExprs f args) trailing
  | .methodCall receiver name typeArgs args trailing =>
    .methodCall (receiver.mapTypes f) name (typeArgs.mapTypes f) (mapExprs f args) trailing
  | .macroCall p delimiter inner => .macroCall (p.mapTypes f) delimiter inner
  | .structure head entries trailing dots rest =>
    .structure (head.mapTypes f) (mapExprs f entries) trailing dots (mapOptionalExpr f rest)
  | .entry marks member value =>
    .entry (mapMarks f marks) member (mapOptionalExpr f value)
  | .closure quantifier words params trailing output body =>
    .closure (quantifier.mapTypes f) words (mapPatterns f params) trailing
      (mapOptionalType f output) (body.mapTypes f)
  | .block label words body => .block label words (mapStatements f body)
  | .conditional condition body otherwise =>
    .conditional (condition.mapTypes f) (mapStatements f body) (mapOptionalExpr f otherwise)
  | .whileLoop label condition body =>
    .whileLoop label (condition.mapTypes f) (mapStatements f body)
  | .forLoop label pattern source body =>
    .forLoop label (pattern.mapTypes f) (source.mapTypes f) (mapStatements f body)
  | .choice value inner arms =>
    .choice (value.mapTypes f) (mapMarks f inner) (mapExprs f arms)
  | .arm marks pattern guard body comma =>
    .arm (mapMarks f marks) (pattern.mapTypes f) (mapOptionalExpr f guard)
      (body.mapTypes f) comma
  | .test pattern value => .test (pattern.mapTypes f) (value.mapTypes f)
  | .marked marks e => .marked (mapMarks f marks) (e.mapTypes f)
  | .verbatim tokens => .verbatim tokens

def mapPatterns (f : Ty → Ty) : List Pattern → List Pattern
  | [] => []
  | p :: rest => p.mapTypes f :: mapPatterns f rest

def Pattern.mapTypes (f : Ty → Ty) : Pattern → Pattern
  | .wildcard => .wildcard
  | .dots => .dots
  | .variable isRef isMut name => .variable isRef isMut name
  | .alias p inner => .alias (p.mapTypes f) (inner.mapTypes f)
  | .value e => .value (e.mapTypes f)
  | .reference isMut p => .reference isMut (p.mapTypes f)
  | .paren p => .paren (p.mapTypes f)
  | .tuple ps trailing => .tuple (mapPatterns f ps) trailing
  | .slice ps trailing => .slice (mapPatterns f ps) trailing
  | .variant head ps trailing => .variant (head.mapTypes f) (mapPatterns f ps) trailing
  | .structure head entries trailing rest =>
    .structure (head.mapTypes f) (mapPatterns f entries) trailing
      (mapOptionalMarks f rest)
  | .entry marks member p => .entry (mapMarks f marks) member (p.mapTypes f)
  | .alternatives leading ps => .alternatives leading (mapPatterns f ps)
  | .typed p t => .typed (p.mapTypes f) (t.mapTypes f)
  | .marked marks p => .marked (mapMarks f marks) (p.mapTypes f)
  | .verbatim tokens => .verbatim tokens

def mapOptionalMarks (f : Ty → Ty) : Option (List Mark) → Option (List Mark)
  | none => none
  | some marks => some (mapMarks f marks)

def mapStatements (f : Ty → Ty) : List Statement → List Statement
  | [] => []
  | s :: rest => s.mapTypes f :: mapStatements f rest

def Statement.mapTypes (f : Ty → Ty) : Statement → Statement
  | .binding marks pattern value otherwise =>
    .binding (mapMarks f marks) (pattern.mapTypes f) (mapOptionalExpr f value)
      (mapOptionalExpr f otherwise)
  | .effect e => .effect (e.mapTypes f)
  | .result e => .result (e.mapTypes f)
  | .macroCall marks p delimiter inner semicolon =>
    .macroCall (mapMarks f marks) (p.mapTypes f) delimiter inner semicolon
  | .item parts assemble => .item (mapParts f parts) assemble
  | .innerMark m => .innerMark (m.mapTypes f)
  | .empty => .empty

def mapParts (f : Ty → Ty) : List Part → List Part
  | [] => []
  | p :: rest => p.mapTypes f :: mapParts f rest

def Part.mapTypes (f : Ty → Ty) : Part → Part
  | .marks marks => .marks (mapMarks f marks)
  | .innerMarks marks => .innerMarks (mapMarks f marks)
  | .param p => .param (p.mapTypes f)
  | .quantifier q => .quantifier (q.mapTypes f)
  | .path p => .path (p.mapTypes f)
  | .type t => .type (t.mapTypes f)
  | .bound b => .bound (b.mapTypes f)
  | .expr e => .expr (e.mapTypes f)
  | .pattern p => .pattern (p.mapTypes f)
  | .statements body => .statements (mapStatements f body)

end

end SchemaBindings.Code
