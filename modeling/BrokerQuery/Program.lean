import BrokerQuery.Command.Execute
import BrokerQuery.CommandLine.Reader
import BrokerQuery.Environment.File
/-
  The program from its arguments to its exit code.

  A variable file in the working folder adds to the environment; then the command line is read,
  the configuration is loaded and the command is carried out.
-/

namespace BrokerQuery

/-- What surrounds a run of the program. -/
structure Surroundings where
  files : FileSystem
  environment : Environment
  /-- The home folder of the user, if there is one. -/
  home : Option String
  clock : Clock

namespace Surroundings

/-- The path of the variable file. -/
def variableFile : String := ".env"

/-- The environment with what the variable file adds. -/
def fullEnvironment (s : Surroundings) : Environment :=
  match s.files variableFile with
  | .text content => s.environment.addFile content
  | _ => s.environment

end Surroundings

namespace Program

/-- The name and the version of the program. -/
def versionText : String := "druidq 0.1.0\n"

/-- Loads the configuration that a command line asks for and carries out its command. -/
def carryOut (s : Surroundings) (paths : ConfigPaths) (line : CommandLine) :
    Session (Except CommandError Unit) :=
  let loading := Config.load s.files s.home line.overrides paths
  Session.warnAll loading.warnings <|
    match loading.config with
    | .error e => Command.fail (.config e)
    | .ok config => line.command.execute s.clock config

/-- A program that ends over its command line; help and version are printed. -/
def endWith (e : UsageError) : Session (Except Stop Unit) :=
  let last := .done (.error (.usage e))
  match e with
  | .helpWanted => .print usageText last
  | .versionWanted => .print versionText last
  | _ => last

/-- The run of a program with its arguments, and why it ends early if it does. -/
def run (s : Surroundings) (args : List String) : Session (Except Stop Unit) :=
  match CommandLine.parse s.fullEnvironment args with
  | .error e => endWith e
  | .ok line => do
    let result ← carryOut s (.standard s.home) line
    return result.mapError .command

/-- The paths of the configuration files that a run with these arguments may look at. -/
def configFiles (s : Surroundings) (args : List String) : List String :=
  let paths := ConfigPaths.standard s.home
  let named := match CommandLine.parse s.fullEnvironment args with
    | .ok line => (line.overrides.config.map (expandHome s.home)).toList
    | .error _ => []
  paths.profile.toList ++ paths.localFile :: named

end Program
end BrokerQuery
