import Pseudocode.Text.Case
import Pseudocode.Text.Similarity
import Pseudocode.Eval

/-!
The arguments of the command line.

Words are read from left to right. An option takes its value from the same word
(`--seed=1`, `-ecode`) or from the next one, unless that looks like an option.
A value is checked when the next argument has been recognised, so an argument
that is not recognised is reported first, and so is all that is wrong with a
command and the words after it.
-/

namespace Pseudocode.Command

/-- When to use colour. -/
inductive ColorChoice where
  /-- When the output is a terminal. -/
  | auto
  | always
  | never
  deriving DecidableEq, Repr

/-- A choice by its name, in any letter case. -/
def ColorChoice.ofText (s : String) : Except String ColorChoice :=
  match Text.lower s with
  | "auto" => .ok .auto
  | "always" => .ok .always
  | "never" => .ok .never
  | _ => .error ("Invalid color choice: " ++ s ++ ". Must be 'auto', 'always', or 'never'")

/-- The shells for which completions exist. -/
inductive Shell where
  | bash | elvish | fish | powershell | zsh
  deriving DecidableEq, Repr

def Shell.ofText? : String → Option Shell
  | "bash" => some .bash
  | "elvish" => some .elvish
  | "fish" => some .fish
  | "powershell" => some .powershell
  | "zsh" => some .zsh
  | _ => none

/-- Why arguments are not carried out. -/
inductive UsageError where
  | unknownArgument
  | invalidValue
  | valueValidation
  | argumentConflict
  | missingRequiredArgument
  | tooManyValues
  | invalidSubcommand
  /-- Help was asked for. -/
  | displayHelp
  /-- The version was asked for. -/
  | displayVersion
  deriving DecidableEq, Repr

/-- What the arguments ask for. -/
structure Arguments where
  file : Option String := none
  eval : Option String := none
  files : Option String := none
  color : Option ColorChoice := none
  verbose : Bool := false
  loopLimit : Option Nat := none
  callDepth : Option Nat := none
  seed : Option Nat := none
  dumpAst : Bool := false
  /-- Print completions for a shell instead of running anything. -/
  complete : Option Shell := none
  deriving DecidableEq, Repr

/-! ### Values -/

/-- What takes a value: an option, or the place of the program file. -/
inductive Slot where
  | file | eval | files | color | loopLimit | callDepth | seed
  deriving DecidableEq, Repr

/-- A natural number below `2 ^ 64`. -/
def parseWord (s : String) : Except UsageError Nat :=
  let ds := match s.toList with
    | '+' :: ds => ds
    | ds => ds
  match if Decimal.isDigits ds then Decimal.valueWithin? 20 ds else none with
  | some n => if n < twoPow 64 then .ok n else .error .valueValidation
  | none => .error .valueValidation

/-- A path, which is not empty. -/
def parsePath (s : String) : Except UsageError String :=
  if s.isEmpty then .error .invalidValue else .ok s

/-- Fills a slot that is empty so far. -/
def fill {α : Type} (old : Option α) (new : Except UsageError α) : Except UsageError (Option α) :=
  if old.isSome then .error .argumentConflict else new.map some

def Arguments.store (a : Arguments) (slot : Slot) (value : String) : Except UsageError Arguments :=
  match slot with
  | .file => (fill a.file (parsePath value)).map ({ a with file := · })
  | .eval => (fill a.eval (.ok value)).map ({ a with eval := · })
  | .files => (fill a.files (parsePath value)).map ({ a with files := · })
  | .color =>
      let choice := match ColorChoice.ofText value with
        | .ok c => .ok c
        | .error _ => .error .valueValidation
      (fill a.color choice).map ({ a with color := · })
  | .loopLimit => (fill a.loopLimit (parseWord value)).map ({ a with loopLimit := · })
  | .callDepth => (fill a.callDepth (parseWord value)).map ({ a with callDepth := · })
  | .seed => (fill a.seed (parseWord value)).map ({ a with seed := · })

/-! ### Names -/

/-- What an option does. -/
inductive Effect where
  | takes (slot : Slot)
  | verbose | dumpAst | help | version
  deriving DecidableEq, Repr

def longOption? : String → Option Effect
  | "eval" => some (.takes .eval)
  | "files" => some (.takes .files)
  | "color" => some (.takes .color)
  | "loop-limit" => some (.takes .loopLimit)
  | "max-call-depth" => some (.takes .callDepth)
  | "seed" => some (.takes .seed)
  | "verbose" => some .verbose
  | "dump-ast" => some .dumpAst
  | "help" => some .help
  | "version" => some .version
  | _ => none

def shortOption? : Char → Option Effect
  | 'e' => some (.takes .eval)
  | 'v' => some .verbose
  | 'h' => some .help
  | 'V' => some .version
  | _ => none

/-- The commands. -/
def commandNames : List String := ["complete", "help"]

/-- `name` or `name=value`. -/
def splitAttached (word : String) : String × Option String :=
  let name := word.toList.takeWhile (· != '=')
  match word.toList.dropWhile (· != '=') with
  | [] => (String.ofList name, none)
  | _ :: value => (String.ofList name, some (String.ofList value))

/-! ### Reading the words -/

/-- The arguments read so far, and a slot whose value is not yet checked or not
yet read. -/
structure Reading where
  arguments : Arguments := {}
  pending : Option (Slot × Option String) := none
  /-- The place of the program file has been taken. -/
  hasFile : Bool := false

namespace Reading

/-- Checks the value of the pending slot. -/
def resolve (r : Reading) : Except UsageError Reading :=
  match r.pending with
  | none => .ok r
  | some (_, none) => .error .invalidValue
  | some (slot, some value) =>
      (r.arguments.store slot value).map fun a => { r with arguments := a, pending := none }

/-- An option waits for its value. -/
def waits (r : Reading) : Bool :=
  match r.pending with
  | some (_, none) => true
  | _ => false

/-- An option that takes a value, which may have come with it. -/
def option (r : Reading) (slot : Slot) (attached : Option String) : Except UsageError Reading := do
  let r ← r.resolve
  match attached with
  | none => .ok { r with pending := some (slot, none) }
  | some value => (r.arguments.store slot value).map fun a => { r with arguments := a }

/-- An option that takes no value. -/
def flag (r : Reading) (effect : Effect) : Except UsageError Reading := do
  let r ← r.resolve
  match effect with
  | .verbose =>
      if r.arguments.verbose then .error .argumentConflict
      else .ok { r with arguments := { r.arguments with verbose := true } }
  | .dumpAst =>
      if r.arguments.dumpAst then .error .argumentConflict
      else .ok { r with arguments := { r.arguments with dumpAst := true } }
  | .help => .error .displayHelp
  | .version => .error .displayVersion
  | .takes slot => .ok { r with pending := some (slot, none) }

/-- `--name` or `--name=value`, without the dashes. -/
def long (r : Reading) (word : String) : Except UsageError Reading :=
  let (name, attached) := splitAttached word
  match longOption? name, attached with
  | none, _ => .error .unknownArgument
  | some (.takes slot), _ => r.option slot attached
  | some effect, none => r.flag effect
  | some _, some _ => .error .tooManyValues

/-- Letters after one dash: flags, and last an option whose value is the rest. -/
def short (r : Reading) : List Char → Except UsageError Reading
  | [] => .ok r
  | c :: cs =>
      match shortOption? c with
      | none => .error .unknownArgument
      | some (.takes slot) =>
          match cs with
          | [] => r.option slot none
          | '=' :: value => r.option slot (some (String.ofList value))
          | value => r.option slot (some (String.ofList value))
      | some effect => do
          let r ← r.flag effect
          r.short cs

/-- What is wrong with a word for which there is no place: it may be meant as a
command. After `--` the name of a command is just a word. -/
def misplaced (trailing : Bool) (word : String) : UsageError :=
  if trailing && commandNames.contains word then .unknownArgument
  else if commandNames.any (Text.areSimilar word) then .invalidSubcommand
  else .unknownArgument

/-- A word that is no option: the program file. -/
def positional (r : Reading) (trailing : Bool) (word : String) : Except UsageError Reading :=
  if r.hasFile then .error (misplaced trailing word)
  else do
    let r ← r.resolve
    .ok { r with pending := some (.file, some word), hasFile := true }

end Reading

/-- The shell of `complete`, if one was named. -/
def checkShell : Option String → Except UsageError (Option Shell)
  | none => .ok none
  | some name =>
      match Shell.ofText? name with
      | some s => .ok (some s)
      | none => .error .invalidValue

/-- Help on `complete` was asked for. -/
def shellHelp (shell : Option String) : Except UsageError Shell := do
  let _ ← checkShell shell
  .error .displayHelp

/-- The shell of `complete`, from the words after it. Its only option asks for
help. -/
def parseShell (trailing : Bool) (shell : Option String) : List String → Except UsageError Shell
  | [] => do
      match ← checkShell shell with
      | some s => .ok s
      | none => .error .missingRequiredArgument
  | word :: rest =>
      if !trailing && word == "--" then parseShell true shell rest
      else if !trailing && word.startsWith "--" then
        match splitAttached (String.ofList (word.toList.drop 2)) with
        | ("help", none) => shellHelp shell
        | ("help", some _) => .error .tooManyValues
        | _ => .error .unknownArgument
      else if !trailing && word.startsWith "-" && word != "-" then
        if word.startsWith "-h" then shellHelp shell else .error .unknownArgument
      else if shell.isSome then .error .unknownArgument
      else parseShell trailing (some word) rest

/-- Reads words; after `--` none of them is an option. -/
def readWords (trailing : Bool) (r : Reading) : List String → Except UsageError Reading
  | [] => r.resolve
  | word :: rest =>
      if trailing then do
        let r ← r.positional true word
        readWords true r rest
      else if !r.waits && word == "complete" then do
        let shell ← parseShell false none rest
        let r ← r.resolve
        .ok { r with arguments := { r.arguments with complete := some shell } }
      else if !r.waits && word == "help" then
        if rest.isEmpty || rest == ["complete"] || rest == ["help"] then .error .displayHelp
        else .error .invalidSubcommand
      else if word == "--" then readWords true r rest
      else if word.startsWith "--" then do
        let r ← r.long (String.ofList (word.toList.drop 2))
        readWords false r rest
      else if word.startsWith "-" && word != "-" then do
        let r ← r.short (word.toList.drop 1)
        readWords false r rest
      else
        match r.pending with
        | some (slot, none) => readWords false { r with pending := some (slot, some word) } rest
        | _ => do
            let r ← r.positional false word
            readWords false r rest

/-- The arguments of a command line, without the name of the program. A program
file and a program text exclude each other. -/
def Arguments.parse (words : List String) : Except UsageError Arguments := do
  let r ← readWords false {} words
  if r.arguments.file.isSome && r.arguments.eval.isSome then .error .argumentConflict
  else .ok r.arguments

/-! ### Settings -/

/-- How programs are to be run. -/
structure Settings where
  color : Bool
  verbose : Bool
  dumpAst : Bool
  root : String
  limits : Limits
  seed : Option Nat
  deriving DecidableEq, Repr

/-- The settings that arguments ask for; `terminal` tells whether the output is
one. -/
def Arguments.settings (a : Arguments) (terminal : Bool) : Settings :=
  let defaults : Limits := {}
  { color := match a.color.getD .auto with
      | .auto => terminal
      | .always => true
      | .never => false
    verbose := a.verbose
    dumpAst := a.dumpAst
    root := a.files.getD "."
    limits :=
      { rounds := a.loopLimit.getD defaults.rounds, depth := a.callDepth.getD defaults.depth }
    seed := a.seed }

end Pseudocode.Command
