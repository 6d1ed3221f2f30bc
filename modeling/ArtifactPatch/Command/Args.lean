/-
  ArtifactPatch.Command.Args
  ──────────────────────────
  **THE ARGUMENTS OF THE PROGRAM.**

  Options stand in front of the command, behind it, or both; of an option that
  both places give, the one behind the command counts.  In one place an option
  may be given once only, except for verbosity.  An option's value is attached
  to it or is the next argument, which then must not look like an option.
-/
import ArtifactPatch.WaitCondition

namespace ArtifactPatch

/-! ## §1. Commands and options. -/

/-- The commands. -/
inductive CommandName where
  | apply
  | restore
  | verify
  | status
  | list
  | simulate
  deriving Repr, DecidableEq

namespace CommandName

/-- All commands, in the order in which help shows them. -/
def all : List CommandName :=
  [.apply, .restore, .verify, .status, .list, .simulate]

/-- How a command is written. -/
def text : CommandName → String
  | .apply => "apply"
  | .restore => "restore"
  | .verify => "verify"
  | .status => "status"
  | .list => "list"
  | .simulate => "simulate"

/-- The command that is written like this. -/
def ofText? (t : String) : Option CommandName :=
  all.find? (·.text == t)

end CommandName

/-- The options of the program and of its commands. -/
inductive OptionName where
  | help
  | version
  | verbose
  | profile
  | packageDir
  | dryRun
  | diff
  | ignoreVersion
  | keepBackup
  | defaultMs
  deriving Repr, DecidableEq

/-- How an option is written. -/
structure OptionForm where
  name : OptionName
  short : Option Char
  long : String
  takesValue : Bool
  deriving Repr, DecidableEq

namespace OptionForm

/-- Options that stand in front of the command and behind it. -/
def shared : List OptionForm :=
  [⟨.verbose, some 'v', "verbose", false⟩, ⟨.profile, some 'p', "profile", true⟩,
    ⟨.packageDir, none, "package-dir", true⟩]

/-- The request for help, which stands everywhere. -/
def help : OptionForm := ⟨.help, some 'h', "help", false⟩

/-- Options in front of the command. -/
def leading : List OptionForm :=
  shared ++ [help, ⟨.version, some 'V', "version", false⟩]

/-- Options that only one command has. -/
def own : CommandName → List OptionForm
  | .apply => [⟨.dryRun, some 'n', "dry-run", false⟩, ⟨.diff, some 'd', "diff", false⟩,
      ⟨.ignoreVersion, none, "ignore-version", false⟩]
  | .restore => [⟨.keepBackup, none, "keep-backup", false⟩]
  | .simulate => [⟨.defaultMs, none, "default-ms", true⟩]
  | .verify | .status | .list => []

/-- Two lists in turn, then the rest of the longer one. -/
def inTurn : List OptionForm → List OptionForm → List OptionForm
  | a :: as, b :: bs => a :: b :: inTurn as bs
  | [], bs => bs
  | as, [] => as

/-- Options behind a command: its own and the shared ones in turn, then help. -/
def ofCommand (c : CommandName) : List OptionForm :=
  inTurn (own c) shared ++ [help]

end OptionForm

/-! ## §2. Tokens. -/

/-- What an argument says. -/
inductive ArgToken where
  /-- An option with its value, which is empty where it takes none. -/
  | option (name : OptionName) (value : String)
  /-- Any other argument, with those behind it. -/
  | word (text : String) (rest : List String)
  /-- An argument behind two dashes. -/
  | operand (text : String)
  | misuse
  deriving Repr, DecidableEq

namespace ArgToken

/-- An argument that can be no value of an option. -/
def looksLikeOption (arg : String) : Bool :=
  arg.length > 1 && arg.toList.head? == some '-'

/-- The options of a run of short ones, and the option at its end that still
asks for a value. -/
def ofShort (forms : List OptionForm) : Text → List ArgToken × Option OptionName
  | [] => ([], none)
  | c :: rest =>
      match forms.find? (·.short == some c) with
      | none => ([.misuse], none)
      | some form =>
          if !form.takesValue then
            let (more, waiting) := ofShort forms rest
            (.option form.name "" :: more, waiting)
          else match rest with
            | [] => ([], some form.name)
            | '=' :: value => ([.option form.name (String.ofList value)], none)
            | value => ([.option form.name (String.ofList value)], none)

/-- A long option, which still asks for a value where none is attached. -/
def ofLong (forms : List OptionForm) (body : Text) : List ArgToken × Option OptionName :=
  let key := body.takeWhile (· ≠ '=')
  let value := body.drop (key.length + 1)
  let attached := key.length < body.length
  match forms.find? (·.long == String.ofList key) with
  | none => ([.misuse], none)
  | some form =>
      if form.takesValue then
        if attached then ([.option form.name (String.ofList value)], none)
        else ([], some form.name)
      else ([if attached then .misuse else .option form.name ""], none)

/-- The tokens of some arguments. -/
def ofArgs (forms : List OptionForm) (args : List String) : List ArgToken :=
  match args with
  | [] => []
  | arg :: rest =>
      match arg.toList with
      | ['-', '-'] => rest.map .operand
      | '-' :: '-' :: body => go (ofLong forms body) rest
      | '-' :: c :: body => go (ofShort forms (c :: body)) rest
      | _ => .word arg rest :: ofArgs forms rest
termination_by (args.length, 0)
where
  /-- Give a waiting option its value and read on. -/
  go (read : List ArgToken × Option OptionName) (rest : List String) : List ArgToken :=
    match read, rest with
    | (ts, none), rest => ts ++ ofArgs forms rest
    | (ts, some _), [] => ts ++ [.misuse]
    | (ts, some name), value :: rest =>
        if looksLikeOption value then ts ++ [.misuse]
        else ts ++ .option name value :: ofArgs forms rest
  termination_by (rest.length, 1)

end ArgToken

/-! ## §3. Invocations. -/

/-- A command with its own options. -/
inductive Command where
  | apply (dryRun diff ignoreVersion : Bool)
  | restore (keepBackup : Bool)
  | verify
  | status
  | list
  | simulate (settings : List TimeoutSetting) (defaultMs : Nat)
  deriving Repr, DecidableEq

/-- Options that every command understands. -/
structure SharedOptions where
  profile : Option String
  packageDir : Option String
  verbosity : Nat
  deriving Repr, DecidableEq

/-- What help is about. -/
inductive HelpTopic where
  | program
  | command (name : CommandName)
  /-- The command that asks for help. -/
  | help
  deriving Repr, DecidableEq

/-- What the arguments ask for. -/
inductive Invocation where
  | run (o : SharedOptions) (c : Command)
  | help (topic : HelpTopic)
  | version
  | misuse
  deriving Repr, DecidableEq

/-- The log filter that a number of verbosity flags asks for. -/
def logDirective : (verbosity : Nat) → String
  | 0 => "sdk_patcher=warn"
  | 1 => "sdk_patcher=info"
  | _ => "sdk_patcher=debug"

/-- Options in one place, with their values. -/
abbrev GivenOptions := List (OptionName × String)

namespace GivenOptions

/-- Whether an option can have a value. -/
def accepts : OptionName → String → Bool
  | .profile, value | .packageDir, value => !value.isEmpty
  | .defaultMs, value => (readCount? value.toList).isSome
  | _, _ => true

/-- Add an option, unless it is given already or cannot have the value. -/
def add (g : GivenOptions) (name : OptionName) (value : String) : Option GivenOptions :=
  if accepts name value && (name = .verbose || !g.any (·.1 = name)) then
    some (g ++ [(name, value)])
  else none

/-- Whether an option is given. -/
def has (g : GivenOptions) (name : OptionName) : Bool :=
  g.any (·.1 = name)

/-- How often an option is given. -/
def countOf (g : GivenOptions) (name : OptionName) : Nat :=
  g.countP (·.1 = name)

end GivenOptions

namespace Invocation

/-- Whether a command takes an argument that is no option. -/
def takesWord (name : CommandName) (word : String) : Bool :=
  name = .simulate && (TimeoutSetting.parse word).isOk

/-- The options and other arguments behind a command, or what they ask for
instead.  An argument that the command does not take goes before a request for
help behind it. -/
def readPlace (command : CommandName) (g : GivenOptions) (words : List String) :
    List ArgToken → Except Invocation (GivenOptions × List String)
  | [] => .ok (g, words.reverse)
  | .option .help _ :: _ => .error (.help (.command command))
  | .option name value :: rest =>
      match g.add name value with
      | some g => readPlace command g words rest
      | none => .error .misuse
  | .word text _ :: rest | .operand text :: rest =>
      if takesWord command text then readPlace command g (text :: words) rest
      else .error .misuse
  | .misuse :: _ => .error .misuse

/-- A command from its name, its options and its other arguments. -/
def command (g : GivenOptions) (words : List String) : CommandName → Command
  | .apply => .apply (g.has .dryRun) (g.has .diff) (g.has .ignoreVersion)
  | .restore => .restore (g.has .keepBackup)
  | .verify => .verify
  | .status => .status
  | .list => .list
  | .simulate =>
      let default := (g.lookup .defaultMs).bind fun v => readCount? v.toList
      .simulate (words.filterMap fun w => (TimeoutSetting.parse w).toOption)
        (default.getD WaitCondition.defaultMs)

/-- Options from before and behind the command. -/
def sharedOptions (before behind : GivenOptions) : SharedOptions where
  profile := (behind.lookup .profile).or (before.lookup .profile)
  packageDir := (behind.lookup .packageDir).or (before.lookup .packageDir)
  verbosity :=
    if behind.has .verbose then behind.countOf .verbose else before.countOf .verbose

/-- A command with the arguments behind it. -/
def ofCommand (before : GivenOptions) (name : CommandName) (args : List String) : Invocation :=
  match readPlace name [] [] (ArgToken.ofArgs (OptionForm.ofCommand name) args) with
  | .error other => other
  | .ok (behind, words) => .run (sharedOptions before behind) (command behind words name)

/-- Help on the program, or on one command. -/
def ofHelp : (args : List String) → Invocation
  | [] => .help .program
  | ["help"] => .help .help
  | [name] =>
      match CommandName.ofText? name with
      | some c => .help (.command c)
      | none => .misuse
  | _ => .misuse

/-- The tokens in front of a command, and the command. -/
def ofTokens (before : GivenOptions) : List ArgToken → Invocation
  | [] | .operand _ :: _ | .misuse :: _ => .misuse
  | .option .help _ :: _ => .help .program
  | .option .version _ :: _ => .version
  | .option name value :: rest =>
      match before.add name value with
      | some before => ofTokens before rest
      | none => .misuse
  | .word "help" args :: _ => ofHelp args
  | .word name args :: _ =>
      match CommandName.ofText? name with
      | some c => ofCommand before c args
      | none => .misuse

/-- What the arguments ask for. -/
def ofArgs (args : List String) : Invocation :=
  ofTokens [] (ArgToken.ofArgs OptionForm.leading args)

end Invocation

end ArtifactPatch
