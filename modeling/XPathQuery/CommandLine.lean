import XPathQuery.Markup.Document
import XPathQuery.Selection.Basic

/-!
The command line. It takes a document file and an expression, options before,
between and after them, and prints the texts of all matches, the text of the
first or the number of matches. The exit code is 2 when the arguments make no
sense and 1 when reading, parsing or evaluating fails.
-/
namespace XPathQuery.CommandLine

inductive Mode
  | nodes
  | first
  | count
deriving DecidableEq, Repr

structure Command where
  file : String
  expression : String
  overrides : Overrides
  arguments : List String
  mode : Mode
  config : SelectConfig

/-- What a run prints to standard output, and its exit code. -/
structure Outcome where
  exitCode : Nat
  output : String
deriving DecidableEq, Repr

/-- Why no command is run. -/
inductive Stop
  | usage
  | help
  | version
deriving DecidableEq, Repr

/-- The arguments read so far. -/
structure Draft where
  positionals : List String := []
  overrides : Overrides := []
  arguments : List String := []
  mode : Option Mode := none
  placeholder : Option String := none
  lenient : Bool := false

def modeOf? (name : String) : Option Mode :=
  [("nodes", Mode.nodes), ("first", .first), ("count", .count)].lookup name

/-- The text before and after the first equals sign. -/
def splitEquals? (text : String) : Option (String × String) :=
  (Text.splitAt? ['='] text.toList).map fun (before, after) =>
    (String.ofList before, String.ofList after)

namespace Draft

def addPositional (draft : Draft) (value : String) : Except Stop Draft :=
  if draft.positionals.length < 2 then
    .ok { draft with positionals := draft.positionals ++ [value] }
  else .error .usage

def takesValue (name : String) : Bool :=
  ["--ns", "--arg", "--mode", "--placeholder"].contains name

/-- Sets an option that takes a value. Only --ns and --arg may be repeated. -/
def setOption (draft : Draft) (name value : String) : Except Stop Draft :=
  match name with
  | "--ns" =>
      match splitEquals? value with
      | some entry => .ok { draft with overrides := draft.overrides ++ [entry] }
      | none => .error .usage
  | "--arg" => .ok { draft with arguments := draft.arguments ++ [value] }
  | "--mode" =>
      match draft.mode, modeOf? value with
      | none, some mode => .ok { draft with mode := some mode }
      | _, _ => .error .usage
  | "--placeholder" =>
      match draft.placeholder with
      | none => .ok { draft with placeholder := some value }
      | some _ => .error .usage
  | _ => .error .usage

/-- Sets an option that takes no value. -/
def setFlag (draft : Draft) (name : String) : Except Stop Draft :=
  match name with
  | "--lenient" => if draft.lenient then .error .usage else .ok { draft with lenient := true }
  | "--help" => .error .help
  | "--version" => .error .version
  | _ => .error .usage

def command (draft : Draft) : Except Stop Command :=
  match draft.positionals with
  | [file, expression] =>
      .ok
        { file, expression
          overrides := draft.overrides
          arguments := draft.arguments
          mode := draft.mode.getD .nodes
          config :=
            { placeholder := draft.placeholder.getD ({} : SelectConfig).placeholder
              strict := !draft.lenient } }
  | _ => .error .usage

end Draft

/-- Whether an argument begins like an option. A hyphen alone is a value. -/
def looksLikeOption (argument : String) : Bool :=
  argument.toList.head? == some '-' && argument != "-"

def readPositionals (draft : Draft) : List String → Except Stop Draft
  | [] => .ok draft
  | value :: rest => do readPositionals (← draft.addPositional value) rest

/-- The letters after a single hyphen. The first one decides. -/
def shortOption (argument : String) : Stop :=
  match argument.toList with
  | '-' :: 'h' :: _ => .help
  | '-' :: 'V' :: _ => .version
  | _ => .usage

/-- Reads arguments from left to right, up to the first one that is wrong. -/
def readArguments (draft : Draft) : List String → Except Stop Draft
  | [] => .ok draft
  | argument :: rest =>
      if argument == "--" then readPositionals draft rest
      else if !looksLikeOption argument then do
        readArguments (← draft.addPositional argument) rest
      else if !"--".toList.isPrefixOf argument.toList then .error (shortOption argument)
      else
        match splitEquals? argument with
        | some (name, value) => do readArguments (← draft.setOption name value) rest
        | none =>
            if Draft.takesValue argument then
              match rest with
              | [] => .error .usage
              | value :: rest =>
                  if looksLikeOption value then .error .usage
                  else do readArguments (← draft.setOption argument value) rest
            else do readArguments (← draft.setFlag argument) rest

def readCommand (arguments : List String) : Except Stop Command := do
  (← readArguments {} arguments).command

def helpText : String :=
  "Evaluate a namespace-aware XPath expression against an XML file\n\n" ++
  "Usage: nsxpath [OPTIONS] <FILE> <EXPRESSION>\n\n" ++
  "Options:\n" ++
  "      --ns <PREFIX=URI>     Extra namespace binding (repeatable)\n" ++
  "      --arg <VALUE>         Value for the next marker (repeatable)\n" ++
  "      --mode <MODE>         nodes, first or count\n" ++
  "      --placeholder <TEXT>  Marker to substitute\n" ++
  "      --lenient             Leave markers without an argument in place\n" ++
  "  -h, --help                Print help\n" ++
  "  -V, --version             Print version\n"

def Stop.outcome : Stop → Outcome
  | usage => ⟨2, ""⟩
  | help => ⟨0, helpText⟩
  | version => ⟨0, "nsxpath 0.1.0\n"⟩

def line (text : String) : String := text ++ "\n"

namespace Command

def selection (command : Command) (tree : Tree) : Selection where
  config := command.config
  tree := tree
  node := []
  source := ⟨tree, [], command.overrides⟩
  template := command.expression
  arguments := command.arguments

def output (command : Command) (tree : Tree) : Except SelectError String :=
  match command.mode with
  | .nodes => (command.selection tree).texts.map fun texts => String.join (texts.map line)
  | .first => (command.selection tree).firstText?.map fun text => (text.map line).getD ""
  | .count => (command.selection tree).nodes.map fun nodes => line (toString nodes.length)

/-- The outcome for the content of the file, which is missing if it cannot be read. -/
def outcome (command : Command) (content : Option String) : Outcome :=
  match content.bind Markup.read with
  | none => ⟨1, ""⟩
  | some tree =>
      match command.output tree with
      | .ok output => ⟨0, output⟩
      | .error _ => ⟨1, ""⟩

end Command

end XPathQuery.CommandLine
