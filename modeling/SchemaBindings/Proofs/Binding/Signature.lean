import SchemaBindings.Binding.Method
import SchemaBindings.Proofs.Code.Paths

/-!
What a function of a client takes, gives and reads: the types of its requests and of its responses,
taken from its signature and from the end of its body, as they stand after relocation.
-/

namespace SchemaBindings

open Code

namespace Code

/-- The items that the last name of a path is given as its argument. -/
def Path.items? (p : Path) : Option Ty :=
  match p.segments.getLast? with
  | some (.mk _ (.angle _ [.assocType _ _ t] _)) => some t
  | _ => none

/-- The items of a stream, by the trait that stands first among its bounds. -/
def Ty.streamed? : Ty → Option Ty
  | .implTrait (.trait _ _ _ p :: _) _ => p.items?
  | _ => none

/-- The argument of a type that takes one. -/
def Ty.argument? : Ty → Option Ty
  | .applied _ [t] => some t
  | _ => none

/-- The type of the requests that a function takes. -/
def Function.request? (s : Shape) (f : Function) : Option Ty :=
  f.parameters.head?.bind fun p => if s.inputIsStream then p.type.streamed? else some p.type

/-- The type of the responses that a function gives. -/
def Function.response? (s : Shape) (f : Function) : Option Ty :=
  f.output.argument?.bind fun t =>
    if s.outputIsStream then t.streamed?.bind Ty.argument? else some t

/-- The type that a statement reads from the wire, once or for every item of a stream. -/
def Statement.decoded? : Statement → Option Ty
  | .result (.call (.applied _ [t]) _ _) => some t
  | .result (.call _ [.call _ [_, .closure _ _ _ _ _
      (.block _ _ [.result (.methodCall _ _ _ [.applied _ [t]] _)])] _] _) => some t
  | _ => none

/-- The type that the body of a function reads from the wire in the end. -/
def Function.decoded? (f : Function) : Option Ty :=
  f.body.getLast?.bind Statement.decoded?

theorem Path.items?_mapTypes (f : Ty → Ty) (leading : Bool) (front : List Segment)
    (ident name : Ident) (item : Ty) :
    (mapTypes f (.mk leading (front ++
      [.mk ident (.angle false [.assocType name .none item] false)]))).items? =
        some (item.mapTypes f) := by
  rw [mapTypes_mk, items?, segments, List.map_append, List.map_singleton, List.getLast?_concat]
  rfl

theorem Ty.argument?_relocate {r : Relocation} (p : Path) (t : Ty) :
    ((Ty.applied p [t]).relocate r).argument? = some (t.relocate r) :=
  rfl

end Code

namespace Binding.Call

variable {r : Relocation} (c : Call) (l : SupportLibrary)

/-- The trait of streams is given its items as an argument of its last name. -/
theorem streamOf_eq (item : Ty) : ∃ leading front ident,
    (l.stream.isPlain = true → front.all Segment.isPlain = true) ∧
    c.streamOf l item = .trait false false .none (.mk leading
      (front ++ [.mk ident (.angle false [.assocType ⟨"Item"⟩ .none item] false)])) := by
  unfold streamOf streamItem
  cases c.mode with
  | blocking => exact ⟨_, [.mk ⟨"core"⟩ .none, .mk ⟨"iter"⟩ .none], _, fun _ => rfl, rfl⟩
  | suspending =>
    refine ⟨l.stream.leading, l.stream.segments, ⟨"Stream"⟩, id, ?_⟩
    simp only [Path.appendNames, Path.appendIdents, List.map_cons, List.map_nil, Path.segments,
      List.dropLast_concat, List.getLast?_concat, Option.map_some, Option.toList_some,
      Segment.ident]
    rfl

theorem streamed?_relocate (item : Ty) (rest : List Bound) (trailing : Bool) :
    ((Ty.implTrait (c.streamOf l item :: rest) trailing).relocate r).streamed? =
      some (item.relocate r) := by
  obtain ⟨leading, front, ident, -, h⟩ := c.streamOf_eq l item
  rw [h]
  exact Path.items?_mapTypes (Ty.relocateHead r) leading front ident ⟨"Item"⟩ item

theorem request?_relocate (body : List Statement) :
    ({ c.function l with body }.relocate r).request? c.shape = some (c.request.relocate r) := by
  simp only [Function.request?, Function.relocate, function, parameter, List.map_cons,
    List.head?_cons, Option.bind_some]
  cases c.shape.inputIsStream with
  | false => rfl
  | true => simp only [if_true, streamed?_relocate]

theorem response?_relocate (body : List Statement) :
    ({ c.function l with body }.relocate r).response? c.shape = some (c.response.relocate r) := by
  simp only [Function.response?, Function.relocate, function, output]
  cases c.shape.outputIsStream with
  | false =>
    simp only [Bool.false_eq_true, if_false, Ty.argument?_relocate, Option.bind_some]
  | true =>
    simp only [if_true, Ty.argument?_relocate, Option.bind_some, streamed?_relocate]

/-- A method that is supported reads its responses as what its function gives. -/
theorem decoded?_relocate (hs : c.shape.isSupported = true) :
    ((c.function l).relocate r).decoded? = some (c.response.relocate r) := by
  simp only [Function.decoded?, Function.relocate, function, body, hs, if_true, List.map_cons,
    List.map_nil, List.getLast?_cons_cons, List.getLast?_singleton, Option.bind_some,
    unmarshalling]
  cases c.shape.outputIsStream <;> rfl

end Binding.Call

end SchemaBindings
