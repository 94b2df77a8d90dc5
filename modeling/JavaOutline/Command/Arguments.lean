/-!
Reading the arguments of a command: options by a long name or by a letter, and operands. What an
option or a row of operands was given is looked at when the next one comes, so an argument that is
not known at all is reported before a value that will not do. The order of these checks, and which
arguments are refused, is that of `clap` 4 for `Cli`, `InspectArgs` and `ScaffoldArgs`; the wording
of help and of refusals stays outside.
-/
namespace JavaOutline.Command

inductive Refusal where
  | help
  | version
  | nothing
  | missingCommand
  | unknownCommand
  | unknownArgument
  | badValue
  | surplusValue
  | repeated
  | missingArgument
deriving DecidableEq, Repr, Inhabited

def Refusal.exitCode : Refusal → Nat
  | .help | .version => 0
  | _ => 2

inductive Domain where
  | text
  | path
  | oneOf (words : List String)
deriving DecidableEq, Repr, Inhabited

def Domain.accepts (value : String) : Domain → Bool
  | .text => true
  | .path => !value.isEmpty
  | .oneOf words => words.contains value

/-- What comes of an option or an operand. -/
inductive Effect where
  | help
  | version
  | switch
  | single (domain : Domain)
  | many (domain : Domain)
deriving DecidableEq, Repr, Inhabited

structure Parameter where
  name : String
  letter : Option Char := none
  effect : Effect
deriving DecidableEq, Repr, Inhabited

def Parameter.takesValue (parameter : Parameter) : Bool :=
  match parameter.effect with
  | .single _ | .many _ => true
  | _ => false

structure Form where
  options : List Parameter
  operands : Option Parameter := none
deriving DecidableEq, Repr, Inhabited

/-- Arguments under way: the values given so far, and a parameter whose values are still open. -/
structure Reading where
  given : List (String × String) := []
  pending : Option (Parameter × List String) := none
deriving DecidableEq, Repr, Inhabited

namespace Reading

def has (reading : Reading) (name : String) : Bool :=
  reading.given.any fun item => item.1 == name

def values (reading : Reading) (name : String) : List String :=
  (reading.given.filter fun item => item.1 == name).map Prod.snd

def value? (reading : Reading) (name : String) : Option String :=
  (reading.values name).head?

def add (reading : Reading) (name : String) (values : List String) : Reading :=
  { reading with given := reading.given ++ values.map fun value => (name, value) }

def addValues (reading : Reading) (name : String) (once : Bool) (domain : Domain)
    (values : List String) : Except Refusal Reading :=
  if values.isEmpty then .error .badValue
  else if once && reading.has name then .error .repeated
  else if values.all domain.accepts then .ok (reading.add name values)
  else .error .badValue

def apply (reading : Reading) (parameter : Parameter) (values : List String) :
    Except Refusal Reading :=
  match parameter.effect with
  | .help => .error .help
  | .version => .error .version
  | .switch => if reading.has parameter.name then .error .repeated else .ok (reading.add parameter.name [""])
  | .single domain => reading.addValues parameter.name true domain values
  | .many domain => reading.addValues parameter.name false domain values

/-- Carries out the effect that is still open. -/
def settle (reading : Reading) : Except Refusal Reading :=
  match reading.pending with
  | some (parameter, values) => apply { reading with pending := none } parameter values
  | none => .ok reading

def useOption (reading : Reading) (parameter : Parameter) (attached : Option String) :
    Except Refusal Reading :=
  match parameter.takesValue, attached with
  | true, none => reading.settle.map fun settled => { settled with pending := some (parameter, []) }
  | true, some value => reading.settle >>= fun settled => settled.apply parameter [value]
  | false, none => reading.settle >>= fun settled => settled.apply parameter []
  | false, some _ => .error .surplusValue

def useLong (form : Form) (reading : Reading) (text : List Char) : Except Refusal Reading :=
  let name := text.takeWhile (· != '=')
  let attached := match text.drop name.length with
    | [] => none
    | _ :: value => some (String.ofList value)
  match form.options.find? fun option => option.name == String.ofList name with
  | some option => reading.useOption option attached
  | none => .error .unknownArgument

/-- Takes options by their letters. Behind a letter that takes a value the rest is the value. -/
def useLetters (form : Form) (reading : Reading) : List Char → Except Refusal Reading
  | [] => .ok reading
  | letter :: rest =>
    match form.options.find? fun option => option.letter == some letter with
    | none => .error .unknownArgument
    | some option =>
      if option.takesValue then
        reading.useOption option (match rest with
          | [] => none
          | '=' :: value => some (String.ofList value)
          | value => some (String.ofList value))
      else reading.useOption option none >>= fun next => useLetters form next rest

/-- Takes an operand, together with those right before it. -/
def useOperand (form : Form) (reading : Reading) (value : String) : Except Refusal Reading :=
  match form.operands, reading.pending with
  | none, _ => .error .unknownArgument
  | some operands, some (parameter, values) =>
    if parameter = operands then .ok { reading with pending := some (operands, values ++ [value]) }
    else reading.settle.map fun settled => { settled with pending := some (operands, [value]) }
  | some operands, none => .ok { reading with pending := some (operands, [value]) }

def useWord (form : Form) (reading : Reading) (value : String) : Except Refusal Reading :=
  match reading.pending with
  | some (parameter, []) => .ok { reading with pending := some (parameter, [value]) }
  | _ => reading.useOperand form value

/-- Takes an argument that starts with a dash and does not end there. -/
def useDashed (form : Form) (reading : Reading) (text : List Char) : Except Refusal Reading :=
  match text with
  | '-' :: name => reading.useLong form name
  | letters => reading.useLetters form letters

/-- Takes every argument. Behind two dashes alone there are only operands. -/
def run (form : Form) (reading : Reading) : List String → Except Refusal Reading
  | [] => reading.settle
  | argument :: rest =>
    match argument.toList with
    | ['-', '-'] => (rest.foldlM (fun reading value => reading.useOperand form value) reading) >>= settle
    | '-' :: c :: text => reading.useDashed form (c :: text) >>= fun next => run form next rest
    | _ => reading.useWord form argument >>= fun next => run form next rest

end Reading

end JavaOutline.Command
