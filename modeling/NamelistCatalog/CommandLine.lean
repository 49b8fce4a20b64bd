import NamelistCatalog.Files.Path
import NamelistCatalog.Merge

namespace NamelistCatalog

/-- What is given for the making of a database. -/
structure MakeOptions where
  source : Option Path := none
  output : Option Path := none
  config : Option Path := none
  policy : Option MergePolicy := none
  keepPrevious : Bool := false
deriving DecidableEq, Repr

/-- What the program is asked to do. -/
inductive Command where
  | doc (name : String)
  | defaultValue (name : String)
  | summary (name : String)
  | entry (name : String)
  | version
  | search (patterns : List String) (byStart : Bool)
  | searchDocs (patterns : List String)
  | make (options : MakeOptions)
deriving DecidableEq, Repr

/-- A command with the options that every command takes. -/
structure Invocation where
  database : Option Path := none
  json : Bool := false
  command : Command
deriving DecidableEq, Repr

/-- What a command line asks for. -/
inductive Request where
  | run (invocation : Invocation)
  | programVersion
  | help
deriving DecidableEq, Repr

namespace CommandLine

/-- The commands by kind. -/
inductive Kind where
  | doc
  | defaultValue
  | summary
  | entry
  | version
  | search
  | searchDocs
  | make
deriving DecidableEq, Repr

def Kind.ofWord? (word : String) : Option Kind :=
  ([("doc", .doc), ("default", .defaultValue), ("summary", .summary), ("show", .entry),
    ("version", .version), ("search", .search), ("searchd", .searchDocs),
    ("makedb", .make)] : List (String × Kind)).lookup word

/-- The number of arguments without a dash that a command takes at most. -/
def Kind.mostArguments : Kind → Option Nat
  | .version => some 0
  | .search => none
  | .searchDocs => none
  | _ => some 1

/-- Options with a value. -/
inductive ValueOption where
  | database
  | output
  | config
  | policy
deriving DecidableEq, Repr

/-- Options without a value that may be given once. -/
inductive Flag where
  | json
  | byStart
  | keepPrevious
deriving DecidableEq, Repr

/-- The option with a value that a word names before (`none`) or after a command. -/
def ValueOption.ofWord? (kind : Option Kind) (word : String) : Option ValueOption :=
  if word == "--db" then some .database
  else if kind == some .make then
    if word == "--output" then some .output
    else if word == "--config" then some .config
    else if word == "--merge-policy" then some .policy
    else none
  else none

/-- The flag that a word names before (`none`) or after a command. -/
def Flag.ofWord? (kind : Option Kind) (word : String) : Option Flag :=
  if word == "--json" then some .json
  else if word == "--prefix" && kind == some .search then some .byStart
  else if word == "--backup" && kind == some .make then some .keepPrevious
  else none

def policyOfWord? (word : String) : Option MergePolicy :=
  if word == "version-then-recency" then some .versionThenRecency
  else if word == "first-wins" then some .firstWins
  else if word == "last-wins" then some .lastWins
  else none

/-- What has been given, before or after the command. -/
structure Given where
  values : List (ValueOption × String) := []
  flags : List Flag := []
  arguments : List String := []
deriving DecidableEq, Repr

/-- Whether a value is fit for its option: paths are not empty, and policies are known. -/
def isFit (option : ValueOption) (value : String) : Bool :=
  match option with
  | .policy => (policyOfWord? value).isSome
  | _ => !value.isEmpty

/-- What has been given, with one more value, unless the option was given before. -/
def Given.addValue? (g : Given) (option : ValueOption) (value : String) : Option Given :=
  if (g.values.lookup option).isSome || !isFit option value then none
  else some { g with values := (option, value) :: g.values }

/-- What has been given, with one more flag, unless it was given before. -/
def Given.addFlag? (g : Given) (flag : Flag) : Option Given :=
  if g.flags.contains flag then none else some { g with flags := flag :: g.flags }

/-- What has been given to a command, with one more argument, unless there are too many or a path is
empty. -/
def Given.addArgument? (g : Given) (kind : Kind) (argument : String) : Option Given :=
  let isFull := kind.mostArguments.any fun most => most ≤ g.arguments.length
  if isFull || (kind == .make && argument.isEmpty) then none
  else some { g with arguments := g.arguments ++ [argument] }

/-- What has been given to a command, with these arguments after the others; no arguments can be
given without a command. -/
def Given.addArguments? (g : Given) (kind : Option Kind) (arguments : List String) :
    Option Given := do
  let kind ← kind
  arguments.foldlM (fun (g : Given) argument => g.addArgument? kind argument) g

/-- Whether a word is an option or a cluster of them. A dash alone is an argument. -/
def isOption (word : String) : Bool := word.toList.head? == some '-' && word != "-"

/-- What a cluster of short options asks for: nothing more, help, or the version of the program. -/
inductive Short where
  | verbose
  | help
  | programVersion
deriving DecidableEq, Repr

/-- Reads a cluster of short options after its dash. -/
def short? (kind : Option Kind) : List Char → Option Short
  | [] => some .verbose
  | 'v' :: rest => short? kind rest
  | 'h' :: _ => some .help
  | 'V' :: _ => if kind.isNone then some .programVersion else none
  | _ => none

/-- The name of a long option and the value that an equals sign attaches to it. -/
def splitValue (word : String) : String × Option String :=
  let name := word.toList.takeWhile (· != '=')
  match word.toList.dropWhile (· != '=') with
  | [] => (word, none)
  | _ :: value => (String.ofList name, some (String.ofList value))

/-- What one level of a command line comes to: a request at once, or what was given and the words
from the first one on that is no option. -/
inductive Level where
  | request (r : Request)
  | given (g : Given) (rest : List String)

/-- Reads options up to the first other word; `none` stands for a mistake. A double dash ends the
options, which only a command can follow. -/
def readOptions (kind : Option Kind) (g : Given) : List String → Option Level
  | [] => some (.given g [])
  | word :: rest =>
      if !isOption word then some (.given g (word :: rest))
      else if word == "--" then (g.addArguments? kind rest).map fun g => .given g []
      else if word == "--help" then some (.request .help)
      else if word == "--version" && kind.isNone then some (.request .programVersion)
      else if word == "--verbose" then readOptions kind g rest
      else if ['-', '-'].isPrefixOf word.toList then
        let (name, attached) := splitValue word
        match ValueOption.ofWord? kind name, Flag.ofWord? kind name, attached, rest with
        | some option, _, some value, rest =>
            (g.addValue? option value).bind fun g => readOptions kind g rest
        | some option, _, none, value :: rest =>
            if isOption value then none
            else (g.addValue? option value).bind fun g => readOptions kind g rest
        | none, some flag, none, rest => (g.addFlag? flag).bind fun g => readOptions kind g rest
        | _, _, _, _ => none
      else
        match short? kind (word.toList.drop 1) with
        | some .verbose => readOptions kind g rest
        | some .help => some (.request .help)
        | some .programVersion => some (.request .programVersion)
        | none => none

/-- Reads what follows the name of a command; `none` stands for a mistake. The fuel bounds the
number of words. -/
def readCommand (kind : Kind) (g : Given) : (fuel : Nat) → List String → Option Level
  | 0, _ => none
  | fuel + 1, words =>
      match readOptions (some kind) g words with
      | some (.given g (argument :: rest)) =>
          match g.addArgument? kind argument with
          | some g => readCommand kind g fuel rest
          | none => none
      | level => level

/-- The command that what was given comes to, unless its argument is missing. -/
def commandOf? (kind : Kind) (g : Given) : Option Command :=
  let path := fun option => (g.values.lookup option).map Path.ofText
  match kind with
  | .doc => g.arguments.head?.map .doc
  | .defaultValue => g.arguments.head?.map .defaultValue
  | .summary => g.arguments.head?.map .summary
  | .entry => g.arguments.head?.map .entry
  | .version => some .version
  | .search => some (.search g.arguments (g.flags.contains .byStart))
  | .searchDocs => some (.searchDocs g.arguments)
  | .make =>
      some (.make
        { source := g.arguments.head?.map Path.ofText
          output := path .output
          config := path .config
          policy := (g.values.lookup .policy).bind policyOfWord?
          keepPrevious := g.flags.contains .keepPrevious })

/-- What a command line asks for; `none` stands for a mistake. An option that every command takes
counts as it stands after the command when it stands on both sides. -/
def parse? (words : List String) : Option Request := do
  match ← readOptions none {} words with
  | .request r => pure r
  | .given _ [] => none
  | .given before (word :: rest) =>
      if word == "help" then pure .help
      else
        let kind ← Kind.ofWord? word
        match ← readCommand kind {} (rest.length + 1) rest with
        | .request r => pure r
        | .given after _ =>
            let command ← commandOf? kind after
            pure (.run
              { database :=
                  ((after.values.lookup .database).or (before.values.lookup .database)).map Path.ofText
                json := before.flags.contains .json || after.flags.contains .json
                command })

end CommandLine

end NamelistCatalog
