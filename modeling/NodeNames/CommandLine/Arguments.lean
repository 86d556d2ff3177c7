import NodeNames.CommandLine.Basic
/-!
# Reading the command line

The command follows the options that apply to all commands, and is followed by
its own options and arguments. The value of an option may be attached with an
equals sign or follow as the next argument. In the second case it is looked at
only when the next known argument or the end is reached, so that an unknown
argument in between is reported first.
-/

namespace NodeNames

inductive ValueOption where
  | variableType
  | namespaceUri
  | format
deriving DecidableEq

inductive Argument where
  /-- Two hyphens, after which nothing is an option. -/
  | separator
  /-- A name after two hyphens, possibly with an attached value. -/
  | long (name : String) (value : Option String)
  /-- Letters after one hyphen. -/
  | letters (letters : List Char)
  | plain

def Argument.ofText (text : String) : Argument :=
  match text.toList with
  | ['-', '-'] => separator
  | '-' :: '-' :: rest =>
      match Text.cutAtFirst '=' rest with
      | some (name, value) => long (String.ofList name) (some (String.ofList value))
      | none => long (String.ofList rest) none
  | '-' :: first :: rest => letters (first :: rest)
  | _ => plain

inductive CommandWord where
  | compile
  | functions
deriving DecidableEq

def CommandWord.ofText? : String → Option CommandWord
  | "compile" => some compile
  | "functions" => some functions
  | _ => none

/-- The option of a command with a name, if it takes a value. -/
def CommandWord.valueOption? (command : CommandWord) (name : String) : Option ValueOption :=
  match command, name with
  | _, "format" => some .format
  | .compile, "var" => some .variableType
  | .compile, "namespace" => some .namespaceUri
  | _, _ => none

/-- What has been read of the arguments of a command. -/
structure ArgumentState where
  call : Option String
  declarations : List (String × ValueType)
  namespaces : List (String × String)
  format : Option OutputFormat
  verbose : Bool
  /-- An option whose value has not been looked at, and the value once it is known. -/
  pending : Option (ValueOption × Option String)
  /-- Whether the separator has been read. -/
  separated : Bool

namespace ArgumentState

def start : ArgumentState :=
  { call := none, declarations := [], namespaces := [], format := none, verbose := false
    pending := none, separated := false }

def accept (state : ArgumentState) (option : ValueOption) (value : String) :
    Except UsageOutcome ArgumentState :=
  match option with
  | .variableType =>
      match readVariablePair value with
      | .ok pair => .ok { state with declarations := state.declarations ++ [pair] }
      | .error message => .error (.malformedPair message)
  | .namespaceUri =>
      match readNamespacePair value with
      | .ok pair => .ok { state with namespaces := state.namespaces ++ [pair] }
      | .error message => .error (.malformedPair message)
  | .format =>
      if state.format.isSome then .error .repeatedArgument
      else
        match value with
        | "text" => .ok { state with format := some .text }
        | "json" => .ok { state with format := some .json }
        | _ => .error .invalidValue

/-- Looks at the value that is waiting, if there is one. -/
def settle (state : ArgumentState) : Except UsageOutcome ArgumentState :=
  match state.pending with
  | none => .ok state
  | some (option, some value) => accept { state with pending := none } option value
  | some (_, none) => .error .missingValue

def acceptVerbose (state : ArgumentState) : Except UsageOutcome ArgumentState := do
  let settled ← state.settle
  if settled.verbose then throw .repeatedArgument else return { settled with verbose := true }

def answer (state : ArgumentState) (outcome : UsageOutcome) :
    Except UsageOutcome ArgumentState := do
  let _ ← state.settle
  throw outcome

def acceptLetters (state : ArgumentState) (versionKnown : Bool) :
    List Char → Except UsageOutcome ArgumentState
  | [] => .ok state
  | 'v' :: rest => do acceptLetters (← state.acceptVerbose) versionKnown rest
  | 'h' :: _ => state.answer .helpRequested
  | 'V' :: _ => if versionKnown then state.answer .versionRequested else .error .unknownArgument
  | _ :: _ => .error .unknownArgument

def acceptFlag (state : ArgumentState) (versionKnown : Bool) (name : String)
    (value : Option String) : Except UsageOutcome ArgumentState :=
  let flag (accepted : Except UsageOutcome ArgumentState) :=
    if value.isSome then .error .unneededValue else accepted
  match name with
  | "verbose" => flag state.acceptVerbose
  | "help" => flag (state.answer .helpRequested)
  | "version" =>
      if versionKnown then flag (state.answer .versionRequested) else .error .unknownArgument
  | _ => .error .unknownArgument

/-- Reads an argument that is not an option: the call to compile. -/
def acceptPositional (state : ArgumentState) (command : CommandWord) (text : String) :
    Except UsageOutcome ArgumentState :=
  match command, state.call with
  | .compile, none => do return { ← state.settle with call := some text }
  | _, _ => .error .unknownArgument

def acceptArgument (state : ArgumentState) (command : CommandWord) (text : String) :
    Except UsageOutcome ArgumentState :=
  if state.separated then state.acceptPositional command text
  else
    match Argument.ofText text with
    | .separator => .ok { state with separated := true }
    | .long name value =>
        match command.valueOption? name, value with
        | some option, some attached => do accept (← state.settle) option attached
        | some option, none => do return { ← state.settle with pending := some (option, none) }
        | none, _ => state.acceptFlag false name value
    | .letters letters => state.acceptLetters false letters
    | .plain =>
        match state.pending with
        | some (option, none) => .ok { state with pending := some (option, some text) }
        | _ => state.acceptPositional command text

/-- The command that has been read, which for compiling needs a call. -/
def finish (state : ArgumentState) (command : CommandWord) :
    Except UsageOutcome Invocation := do
  let settled ← state.settle
  let format := settled.format.getD .text
  match command, settled.call with
  | .functions, _ => return { command := .functions format, verbose := settled.verbose }
  | .compile, some call =>
      let request :=
        { call, declarations := settled.declarations, namespaces := settled.namespaces, format }
      return { command := .compile request, verbose := settled.verbose }
  | .compile, none => throw .missingCall

end ArgumentState

namespace Invocation

def ofArguments (command : CommandWord) (arguments : List String) :
    Except UsageOutcome Invocation := do
  let state ← arguments.foldlM (fun state text => ArgumentState.acceptArgument state command text)
    ArgumentState.start
  state.finish command

/-- What the word `help` asks for, given the words after it. -/
def help : List String → UsageOutcome
  | [] => .helpRequested
  | [word] =>
      if word = "help" ∨ (CommandWord.ofText? word).isSome then .helpRequested
      else .unknownCommand
  | _ :: _ :: _ => .unknownCommand

/-- Reads a command line from its first argument on. -/
def ofCommandLine (state : ArgumentState) : List String → Except UsageOutcome Invocation
  | [] => .error (if state.verbose then .missingCommand else .nothingGiven)
  | text :: rest =>
      let word := CommandWord.ofText? text
      if state.separated then
        .error (if text = "help" ∨ word.isSome then .unknownArgument else .unknownCommand)
      else
        match word with
        | some command => do
            let invocation ← ofArguments command rest
            return { invocation with verbose := state.verbose || invocation.verbose }
        | none =>
            if text = "help" then .error (help rest)
            else
              match Argument.ofText text with
              | .separator => ofCommandLine { state with separated := true } rest
              | .long name value => do ofCommandLine (← state.acceptFlag true name value) rest
              | .letters letters => do ofCommandLine (← state.acceptLetters true letters) rest
              | .plain => .error .unknownCommand

def read (arguments : List String) : Except UsageOutcome Invocation :=
  ofCommandLine .start arguments

end Invocation

end NodeNames
