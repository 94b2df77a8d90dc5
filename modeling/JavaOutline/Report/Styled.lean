/-!
Text for terminals: runs of text that effects may set off. With colours a run stands between the
sequence that starts its effects and the one that resets them; without, it stands alone. Filling up
to a width belongs to the text, not to the sequences. Sequences are those of `colored` 2, which also
starts the effects again behind a reset inside a text. Its other effects, and the variables by which
it finds out whether there are colours, stay outside.
-/
namespace JavaOutline.Report

inductive Effect where
  | bold | dimmed | red | green | yellow | blue | cyan
deriving DecidableEq, Repr, Inhabited

def Effect.code : Effect → String
  | .bold => "1"
  | .dimmed => "2"
  | .red => "31"
  | .green => "32"
  | .yellow => "33"
  | .blue => "34"
  | .cyan => "36"

/-- A text under effects, filled with spaces up to a width. -/
structure Run where
  text : String
  effects : List Effect := []
  width : Nat := 0
deriving DecidableEq, Repr, Inhabited

def resetSequence : List Char :=
  ['\x1b', '[', '0', 'm']

def startSequence (effects : List Effect) : List Char :=
  '\x1b' :: '[' :: (";".intercalate (effects.map Effect.code)).toList ++ ['m']

/-- A text in which the effects start again behind every reset of its own. -/
def restyled (start : List Char) : List Char → List Char
  | '\x1b' :: '[' :: '0' :: 'm' :: rest => resetSequence ++ start ++ restyled start rest
  | c :: rest => c :: restyled start rest
  | [] => []

def filled (width : Nat) (chars : List Char) : List Char :=
  chars ++ List.replicate (width - chars.length) ' '

/-- The characters of a run, with or without colours. -/
def Run.render (colour : Bool) (run : Run) : List Char :=
  if colour && !run.effects.isEmpty then
    let start := startSequence run.effects
    start ++ filled run.width (restyled start run.text.toList) ++ resetSequence
  else filled run.width run.text.toList

def renderRuns (colour : Bool) (runs : List Run) : String :=
  String.ofList (runs.flatMap (Run.render colour))

end JavaOutline.Report
