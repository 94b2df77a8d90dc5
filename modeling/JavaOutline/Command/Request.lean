import JavaOutline.Command.Arguments

/-!
The two commands and what they are asked to do. They are the fields of `InspectArgs` and
`ScaffoldArgs`.
-/
namespace JavaOutline.Command

inductive Format where
  | pretty
  | json
deriving DecidableEq, Repr, Inhabited

structure InspectRequest where
  paths : List String
  method : Option String := none
  format : Format := .pretty
  settingsPath : Option String := none
deriving DecidableEq, Repr, Inhabited

structure ScaffoldRequest where
  package : String := ""
  className : String
  statements : List String := []
  /-- The folder to write into; the class is printed if there is none. -/
  outputFolder : Option String := none
deriving DecidableEq, Repr, Inhabited

inductive Request where
  | inspect (request : InspectRequest)
  | scaffold (request : ScaffoldRequest)
deriving DecidableEq, Repr, Inhabited

def commonOptions : List Parameter :=
  [⟨"verbose", some 'v', .switch⟩, ⟨"help", some 'h', .help⟩]

def topForm : Form where
  options := commonOptions ++ [⟨"version", some 'V', .version⟩]

def inspectForm : Form where
  options := commonOptions ++ [
    ⟨"method", some 'm', .single .text⟩,
    ⟨"format", some 'f', .single (.oneOf ["pretty", "json"])⟩,
    ⟨"config", some 'c', .single .path⟩]
  operands := some ⟨"paths", none, .many .path⟩

def scaffoldForm : Form where
  options := commonOptions ++ [
    ⟨"package", some 'p', .single .text⟩,
    ⟨"class", some 'C', .single .text⟩,
    ⟨"statement", some 's', .many .text⟩,
    ⟨"out", some 'o', .single .path⟩]

def InspectRequest.ofReading (reading : Reading) : Except Refusal InspectRequest :=
  if reading.has "paths" then
    .ok {
      paths := reading.values "paths"
      method := reading.value? "method"
      format := if reading.value? "format" = some "json" then .json else .pretty
      settingsPath := reading.value? "config" }
  else .error .missingArgument

def ScaffoldRequest.ofReading (reading : Reading) : Except Refusal ScaffoldRequest :=
  match reading.value? "class" with
  | some className => .ok {
      package := (reading.value? "package").getD ""
      className
      statements := reading.values "statement"
      outputFolder := reading.value? "out" }
  | none => .error .missingArgument

namespace Request

/-- The request that a command makes of its arguments; nothing, if there is no such command. -/
def ofCommand? (command : String) (arguments : List String) : Option (Except Refusal Request) :=
  match command with
  | "inspect" => some do
    return .inspect (← InspectRequest.ofReading (← Reading.run inspectForm {} arguments))
  | "scaffold" => some do
    return .scaffold (← ScaffoldRequest.ofReading (← Reading.run scaffoldForm {} arguments))
  | _ => none

def isCommand (word : String) : Bool :=
  ["inspect", "scaffold", "help"].contains word

/-- What asking for help comes to: of the words behind it, one may be there, and has to be a command. -/
def helpOn : List String → Refusal
  | [] => .help
  | [word] => if isCommand word then .help else .unknownCommand
  | _ => .unknownCommand

def withoutCommand (reading : Reading) : Refusal :=
  if reading.given.isEmpty then .nothing else .missingCommand

/-- Behind two dashes no command can stand. -/
def behindDashes (reading : Reading) : List String → Refusal
  | [] => withoutCommand reading
  | word :: _ => if isCommand word then .unknownArgument else .unknownCommand

def ofReading (reading : Reading) : List String → Except Refusal Request
  | [] => .error (withoutCommand reading)
  | argument :: rest =>
    match ofCommand? argument rest, argument.toList with
    | some request, _ => request
    | none, ['-', '-'] => .error (behindDashes reading rest)
    | none, '-' :: c :: text =>
      reading.useDashed topForm (c :: text) >>= fun next => ofReading next rest
    | none, _ => .error (if argument = "help" then helpOn rest else .unknownCommand)

def ofArguments (arguments : List String) : Except Refusal Request :=
  ofReading {} arguments

end Request

end JavaOutline.Command
