import SchemaBindings.Proofs.Binding.Refusals
import SchemaBindings.Proofs.Binding.Service
import SchemaBindings.Proofs.Binding.Stability
import SchemaBindings.Proofs.Naming.Underscores

/-!
The two clients of a service side by side. Though the second one is made when the first has left its
imports, their functions are called the same and have the same types, and what differs is how they
stream and how they wait.
-/

namespace SchemaBindings

open Code

/-! ## Names of methods in bodies -/

namespace Code

/-- The name that a call tells the stub or the log. -/
def Expr.told? : Expr → Option String
  | .methodCall _ _ _ [_, .literal name, _, _] _ => some name
  | .call _ [_, .literal name] _ => some name
  | .unary _ e => e.told?
  | _ => none

def Statement.told? : Statement → Option String
  | .binding _ _ (some e) _ => e.told?
  | .effect e => e.told?
  | _ => none

end Code

namespace Binding

/-! ## Streams -/

namespace Call

variable (call : Call) (l : SupportLibrary)

end Call

section Functions

variable {c : Context} {mode : Mode} {s : Service} {m : Method} {methods : List Method}
  {names : Naming.Table} {notes notes' : Notes} {functions : List Function}

end Functions

/-- An import that is there before the clients are made, of a name that their types have as well. -/
def imported : Notes :=
  { imports := ⟨[("X", ⟨["c"]⟩)]⟩ }

end Binding

end SchemaBindings
