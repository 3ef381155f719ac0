/-! # Command line arguments

Options are written `--name value`, `--name=value`, `-n value`, `-nvalue` or `-n=value`; flags
without values may share one dash.  What the command line leaves open may come from the
environment, and then from a default.

* `OptionSpec` — an option: its names, what it takes, its variable and its default;
* `Arguments.read` — the arguments of a command;
* `Arguments.texts`, `Arguments.isSet` — what holds for an option in the end.
-/

namespace Tollgate.Cli

inductive OptionKind where
  | flag
  /-- One value, which does not begin with a dash unless it is attached. -/
  | single
  /-- One value, which may begin with a dash. -/
  | hyphenated
  /-- Values between commas, as often as it is given. -/
  | many
  deriving DecidableEq, Repr

structure OptionSpec where
  name : String
  short : Option Char := none
  kind : OptionKind := .single
  /-- The environment variable that speaks where the command line does not. -/
  env : Option String := none
  default : Option String := none
  deriving DecidableEq, Repr

/-- What ends the reading of arguments before a command is known. -/
inductive Halt where
  | usage
  | help
  | version
  deriving DecidableEq, Repr

/-- What was given: names of options with their values, in order. -/
abbrev Given := List (String × String)

abbrev Environment := List (String × String)

namespace Arguments

def has (g : Given) (name : String) : Bool := g.any (·.1 = name)

/-- Note a value; only an option with many values may be given twice. -/
def note (g : Given) (o : OptionSpec) (value : String) : Except Halt Given :=
  if o.kind ≠ .many && has g o.name then .error .usage else .ok (g ++ [(o.name, value)])

def looksLikeOption (arg : String) : Bool :=
  match arg.toList with
  | ['-'] => false
  | '-' :: _ => true
  | _ => false

/-- Whether an argument can be the value of an option that stands before it. -/
def mayFollow (o : OptionSpec) (arg : String) : Bool :=
  o.kind = .hyphenated || !looksLikeOption arg

def halting? (name : String) : Option Halt :=
  if name = "help" || name = "h" then some .help else none

/-- What the reading of one argument gave: all of it, or an option that still wants a value. -/
inductive Taken where
  | complete (g : Given)
  | wanting (o : OptionSpec) (g : Given)

def readLong (specs : List OptionSpec) (g : Given) (body : List Char) : Except Halt Taken :=
  let name := String.ofList (body.takeWhile (· ≠ '='))
  let attached : Option String := match body.dropWhile (· ≠ '=') with
    | _ :: value => some (String.ofList value)
    | [] => none
  match specs.find? (·.name = name), attached with
  | some o, some value =>
    if o.kind = .flag then .error .usage else Taken.complete <$> note g o value
  | some o, none =>
    if o.kind = .flag then Taken.complete <$> note g o "true"
    else if o.kind ≠ .many && has g o.name then .error .usage
    else .ok (.wanting o g)
  | none, none => .error ((halting? name).getD .usage)
  | none, some _ => .error .usage

/-- Read what follows one dash: flags, and at the end perhaps an option with its value. -/
def readShort (specs : List OptionSpec) (g : Given) : List Char → Except Halt Taken
  | [] => .ok (.complete g)
  | c :: rest =>
    match specs.find? (·.short = some c) with
    | none => .error ((halting? (String.singleton c)).getD .usage)
    | some o =>
      if o.kind = .flag then do readShort specs (← note g o "true") rest
      else
        match rest with
        | [] => if has g o.name then .error .usage else .ok (.wanting o g)
        | '=' :: value => Taken.complete <$> note g o (String.ofList value)
        | value => Taken.complete <$> note g o (String.ofList value)

def readOne (specs : List OptionSpec) (g : Given) (arg : String) : Except Halt Taken :=
  match arg.toList with
  | '-' :: '-' :: body => readLong specs g body
  | '-' :: c :: rest => readShort specs g (c :: rest)
  | _ => .error .usage

mutual

/-- Read arguments.  Nothing but options is taken, also after two lone dashes. -/
def readFrom (specs : List OptionSpec) (g : Given) : List String → Except Halt Given
  | [] => .ok g
  | ["--"] => .ok g
  | arg :: rest =>
    if arg = "--" then .error .usage
    else
      match readOne specs g arg with
      | .error e => .error e
      | .ok (.complete g) => readFrom specs g rest
      | .ok (.wanting o g) => readValue specs o g rest

def readValue (specs : List OptionSpec) (o : OptionSpec) (g : Given) :
    List String → Except Halt Given
  | [] => .error .usage
  | arg :: rest =>
    if mayFollow o arg then
      match note g o arg with
      | .error e => .error e
      | .ok g => readFrom specs g rest
    else .error .usage

end

def read (specs : List OptionSpec) (args : List String) : Except Halt Given :=
  readFrom specs [] args

/-! ## What holds in the end -/

def splitCommas (s : String) : List String :=
  go [] s.toList
where
  /-- Split, with the part at hand reversed. -/
  go (part : List Char) : List Char → List String
    | [] => [String.ofList part.reverse]
    | c :: cs =>
      if c = ',' then String.ofList part.reverse :: go [] cs else go (c :: part) cs

def fromEnvironment? (env : Environment) (o : OptionSpec) : Option String :=
  match o.env with
  | none => none
  | some name => (env.find? (·.1 = name)).map (·.2)

/-- The texts that hold for an option: from the command line, else from the environment, else by
    default. -/
def texts (env : Environment) (g : Given) (o : OptionSpec) : List String :=
  let given := (g.filter (·.1 = o.name)).map (·.2)
  let found := if given.isEmpty then (fromEnvironment? env o <|> o.default).toList else given
  if o.kind = .many then found.flatMap splitCommas else found

/-- Whether a flag holds.  A variable has to say `true` or `false`. -/
def isSet (env : Environment) (g : Given) (o : OptionSpec) : Except Halt Bool :=
  if has g o.name then .ok true
  else
    match fromEnvironment? env o with
    | none => .ok false
    | some "true" => .ok true
    | some "false" => .ok false
    | some _ => .error .usage

end Arguments

end Tollgate.Cli
