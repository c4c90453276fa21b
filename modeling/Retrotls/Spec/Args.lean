import Retrotls.Spec.Run
import Retrotls.Lib.Options

/-!
# The command line

The arguments that `Cli` and `Commands` accept, and what they are parsed to, as their
attributes are documented: `--config` (or `-c`), `--check` and `--log-level` are global,
so they stand before and after the subcommand; `--foreground` belongs to `start`; an option
is given once at each level, and the one after the subcommand wins; what follows `--` is
positional, and there are no positional arguments; a command line without a subcommand has
an option (`arg_required_else_help`).

Arguments are UTF-8. Where `Cli::parse` prints a help text, the version or an error, it
does not return.
-/

namespace Retrotls

/-- `PathBuf::from`: the components, as they are written. -/
def Path.ofText (text : Str) : Path := text.splitOn '/'

/-- The options of `Cli`, and of `Commands::Start`. -/
inductive Arg
  | config
  | check
  | logLevel
  | foreground
  deriving DecidableEq

namespace Args

def takes : Arg → Bool
  | .config => true
  | .logLevel => true
  | _ => false

/-- A `PathBuf` has a text. -/
def accepts : Arg → Str → Bool
  | .config, value => value ≠ []
  | _, _ => true

/-- The global options. -/
def globalName : OptName → Option Arg
  | .long name =>
    if name = "config".toList then some .config
    else if name = "check".toList then some .check
    else if name = "log-level".toList then some .logLevel
    else none
  | .short c => if c = 'c' then some .config else none

def globals : Options Arg := ⟨globalName, takes, accepts⟩

/-- The options after `start`. -/
def startName (name : OptName) : Option Arg :=
  if name = .long "foreground".toList then some .foreground else globalName name

def startOptions : Options Arg := ⟨startName, takes, accepts⟩

/-- The options that are given at one level, with their values. -/
abbrev Given := List (Arg × Option Str)

def Given.Once (xs : Given) : Prop := (xs.map Prod.fst).Nodup

instance (xs : Given) : Decidable xs.Once := inferInstanceAs (Decidable (List.Nodup _))

def Given.has (xs : Given) (arg : Arg) : Bool := xs.any fun x => x.1 = arg

def Given.value (xs : Given) (arg : Arg) : Option Str :=
  (xs.find? fun x => x.1 = arg).bind Prod.snd

/-- The subcommands: the options after the name, and the value. -/
def subcommand (name : Str) : Option (Options Arg × (Given → Commands)) :=
  if name = "start".toList then some (startOptions, fun xs => .start (xs.has .foreground))
  else if name = "stop".toList then some (globals, fun _ => .stop)
  else if name = "version".toList then some (globals, fun _ => .version)
  else none

/-- The `Cli` for the options before and after the subcommand. -/
def cliOf (command : Option Commands) (top sub : Given) : Cli where
  command := command
  config := ((sub.value .config).or (top.value .config)).map Path.ofText
  check := top.has .check || sub.has .check
  logLevel := (sub.value .logLevel).or (top.value .logLevel)

/-- The end of a command line: nothing, or a `--` with nothing after it. -/
def Escape (args : List Str) : Prop := args = [] ∨ args = ["--".toList]

instance (args : List Str) : Decidable (Escape args) := inferInstanceAs (Decidable (_ ∨ _))

/-- **The grammar of the command line.** -/
inductive CommandLine : List Str → Cli → Prop
  | bare {args e : List Str} {top : Given} (h : globals.Reads args top) (ho : top.Once)
      (hne : top ≠ []) (he : Escape e) : CommandLine (args ++ e) (cliOf none top [])
  | command {name : Str} {opts : Options Arg} {command : Given → Commands}
      {args args' e : List Str} {top sub : Given} (hname : subcommand name = some (opts, command))
      (h : globals.Reads args top) (ho : top.Once) (h' : opts.Reads args' sub) (ho' : sub.Once)
      (he : Escape e) :
      CommandLine (args ++ name :: (args' ++ e)) (cliOf (some (command sub)) top sub)

/-- **What clap documents**: `Cli::parse` returns what the grammar says, and returns for
no other arguments. -/
structure Documented (clap : List Str → Option Cli) : Prop where
  parse : ∀ args cli, clap args = some cli ↔ CommandLine args cli

end Args

end Retrotls
