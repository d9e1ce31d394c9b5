import SchemaBindings.Run
import SchemaBindings.Schema.Json

/-!
The command line: what its arguments ask for, and what a run of it shows.

An option with a value takes it from the next argument, which must not look like an option, or from
behind an equals sign. Only `-v` may be repeated. The first thing that settles the request wins.
-/

namespace SchemaBindings

/-- What the arguments say; what they leave open is absent. -/
structure Options where
  schemas : Option String := none
  output : Option String := none
  settings : Option String := none
  isDryRun : Bool := false
  dumpsSchema : Bool := false
  verbosity : Nat := 0
deriving DecidableEq, Repr

def Options.schemaDirectory (o : Options) : String :=
  o.schemas.getD "protos"

def Options.outputDirectory (o : Options) : String :=
  o.output.getD "src/generated"

/-- What a command line asks for. -/
inductive Request where
  | generate (o : Options)
  | version
  | usage
deriving DecidableEq, Repr

namespace CommandLine

/-- Whether an argument can be the value of the option before it. -/
def isValue (argument : String) : Bool :=
  argument == "-" || !argument.startsWith "-"

/-- The options as a value makes them. No value is empty, and none is given twice. -/
def withValue? (o : Options) (name value : String) : Option Options :=
  if value.isEmpty then none
  else
    match name with
    | "proto-dir" => if o.schemas.isSome then none else some { o with schemas := some value }
    | "out-dir" => if o.output.isSome then none else some { o with output := some value }
    | "config" => if o.settings.isSome then none else some { o with settings := some value }
    | _ => none

def takesValue (name : String) : Bool :=
  ["proto-dir", "out-dir", "config"].contains name

/-- What is known after some of the arguments: the options so far, or already the request. -/
abbrev Progress := Options ⊕ Request

/-- The effect of an option without a value. -/
def flag? (o : Options) : String → Option Progress
  | "dry-run" => if o.isDryRun then none else some (.inl { o with isDryRun := true })
  | "dump-schema" => if o.dumpsSchema then none else some (.inl { o with dumpsSchema := true })
  | "verbose" => some (.inl { o with verbosity := o.verbosity + 1 })
  | "version" => some (.inr .version)
  | "help" => some (.inr .usage)
  | _ => none

def shortName? : Char → Option String
  | 'v' => some "verbose"
  | 'V' => some "version"
  | 'h' => some "help"
  | _ => none

/-- The effect of letters behind a single dash. -/
def letters? (o : Options) : List Char → Option Progress
  | [] => some (.inl o)
  | c :: rest =>
    match (shortName? c).bind (flag? o) with
    | some (.inl o) => letters? o rest
    | settled => settled

/-- An option's name and, behind an equals sign, its value. -/
def splitOption (text : String) : String × Option String :=
  let cs := text.toList
  (String.ofList (cs.takeWhile (· != '=')),
    match cs.dropWhile (· != '=') with
    | [] => none
    | _ :: value => some (String.ofList value))

/-- What the arguments ask for, if they can be understood. -/
def request? (o : Options) : List String → Option Request
  | [] | ["--"] => some (.generate o)
  | argument :: rest =>
    match argument.toList with
    | '-' :: '-' :: text =>
      match splitOption (String.ofList text) with
      | (name, some value) => (withValue? o name value).bind (request? · rest)
      | (name, none) =>
        if takesValue name then
          match rest with
          | [] => none
          | value :: rest =>
            if isValue value then (withValue? o name value).bind (request? · rest) else none
        else
          match flag? o name with
          | none => none
          | some (.inl o) => request? o rest
          | some (.inr request) => some request
    | '-' :: c :: cs =>
      match letters? o (c :: cs) with
      | none => none
      | some (.inl o) => request? o rest
      | some (.inr request) => some request
    | _ => none

end CommandLine

/-- What a command line shows and its exit status. -/
structure Report where
  status : Nat
  stdout : String := ""
  stderr : String := ""

namespace Report

/-- A name that cannot be used and code that cannot be laid out stop a run abnormally. -/
def ofFailure (e : Failure) : Report :=
  let isAbnormal := e = .unusableName ∨ e = .unprintable
  { status := if isAbnormal then 101 else 1, stderr := "Error: " ++ e.message ++ "\n" }

def usageText : String :=
  "Usage: protobind-gen [--proto-dir DIR] [--out-dir DIR] [--config FILE] [--dry-run] " ++
    "[--dump-schema] [-v]...\n"

def misused : Report :=
  { status := 2, stderr := usageText }

end Report

variable {m : Type → Type} [Monad m] [FileSystem m]

/-- The schema files as an indented array. -/
def schemaText (files : List SchemaFile) : String :=
  (Json.Value.array (files.map Schema.fileJson)).indentedText ++ "\n"

/-- Does what options ask for. -/
def Options.perform (o : Options) : ExceptT Failure m Report := do
  let g ← (Generator.ofSettings (← Settings.load o.settings) : Except Failure Generator)
  if o.dumpsSchema then
    return { status := 0, stdout := schemaText (← Generator.load o.schemaDirectory) }
  let (summary, text) ← g.run o.schemaDirectory o.outputDirectory o.isDryRun
  return { status := 0, stdout := text, stderr := summary.text }

/-- Runs a command line. -/
def CommandLine.run (arguments : List String) : m Report := do
  match request? {} arguments with
  | none => return .misused
  | some .usage => return { status := 0, stdout := Report.usageText }
  | some .version => return { status := 0, stdout := "protobind-gen 0.1.0\n" }
  | some (.generate o) =>
    match ← o.perform.run with
    | .ok report => return report
    | .error e => return .ofFailure e

end SchemaBindings
