import BrokerQuery.Broker.Client
import BrokerQuery.Config.Error
import BrokerQuery.Config.FileSystem
import BrokerQuery.Config.Settings
import BrokerQuery.Text.Blank
import BrokerQuery.TimeZone.Resolve
/-
  The layers of a configuration.

  Each setting is the first that is present among

    1. the command line, or the environment in its place;
    2. the overlay: the file that the command line names, else the local file if there is one;
    3. the profile file in the user's home folder, if there is one;
    4. the default.

  Only the merged settings are checked, so a bad value in a lower layer does no harm.  Files are
  read in the order profile, overlay, and the first error decides.
-/

namespace BrokerQuery

/-- What the command line or the environment sets. -/
structure Overrides where
  brokerUrl : Option String := none
  timeoutSecs : Option Nat := none
  /-- The path of the configuration file. -/
  config : Option String := none
  timeZone : Option String := none
deriving DecidableEq

/-- Where configuration files are looked for. -/
structure ConfigPaths where
  profile : Option String
  localFile : String

/-- What holds for every query that does not say otherwise. -/
structure QueryDefaults where
  granularity : String
  timeZone : Option String
deriving DecidableEq

/-- A configuration. -/
structure Config where
  brokerUrl : String
  timeoutSecs : Nat
  defaults : QueryDefaults
deriving DecidableEq

/-- The outcome of loading: the warnings, and the configuration or what is wrong with it. -/
structure Loading where
  warnings : List Warning
  config : Except ConfigError Config

/-- What a file warns of. -/
def FileSettings.warnings (s : FileSettings) : List Warning :=
  if s.unknown.isEmpty then [] else [.unknownFields s.unknown]

/-- The name of a configuration file. -/
def configFileName : String := "druidq.json"

/-- The usual places: below the home folder, for a user who has one, and in the working folder. -/
def ConfigPaths.standard (home : Option String) : ConfigPaths where
  profile := home.map fun home => FileSystem.join (FileSystem.join home ".druidq") configFileName
  localFile := configFileName

/-- A slash of either kind. -/
def isSlash (c : Char) : Bool := c == '/' || c == '\\'

/-- What a path names below the home folder, if a tilde and then a slash or nothing starts it. -/
def belowHome? : List Char → Option (List Char)
  | '~' :: rest => if rest.head?.all isSlash then some (rest.dropWhile isSlash) else none
  | _ => none

/-- The path without blanks around it, and with a tilde at its start replaced by the home folder.  A
user without a home folder keeps the tilde. -/
def expandHome (home : Option String) (path : String) : String :=
  let cs := Text.trimChars path.toList
  match home, belowHome? cs with
  | some home, some rest => FileSystem.join home (String.ofList rest)
  | _, _ => String.ofList cs

namespace Config

/-- The broker on this computer. -/
def defaultUrl : String := "http://localhost:8082/druid/v2/"

def defaultTimeoutSecs : Nat := Client.defaultTimeoutSecs

def defaultGranularity : String := "all"

/-- The settings of a file. -/
def readFile (fs : FileSystem) (path : String) : Except ConfigError FileSettings :=
  match fs path with
  | .text content =>
    match FileSettings.ofText? content with
    | some s => .ok s
    | none => .error (.malformed path)
  | _ => .error (.unreadable path)

/-- The settings of a file if it is there. -/
def readIfThere (fs : FileSystem) (path : String) : Except ConfigError FileSettings :=
  if (fs path).isThere then readFile fs path else .ok {}

/-- The settings of the profile file. -/
def readProfile (fs : FileSystem) (paths : ConfigPaths) : Except ConfigError FileSettings :=
  match paths.profile with
  | some path => readIfThere fs path
  | none => .ok {}

/-- The settings of the overlay; a file that the command line names must be there. -/
def readOverlay (fs : FileSystem) (home : Option String) (o : Overrides) (paths : ConfigPaths) :
    Except ConfigError FileSettings :=
  match o.config with
  | some path =>
    let path := expandHome home path
    if (fs path).isThere then readFile fs path else .error (.missing path)
  | none => readIfThere fs paths.localFile

/-- Each setting from the first layer that has it. -/
def merge (o : Overrides) (overlay profile : FileSettings) : Config where
  brokerUrl := (o.brokerUrl.or (overlay.brokerUrl.or profile.brokerUrl)).getD defaultUrl
  timeoutSecs :=
    (o.timeoutSecs.or (overlay.timeoutSecs.or profile.timeoutSecs)).getD defaultTimeoutSecs
  defaults :=
    { granularity := (overlay.granularity.or profile.granularity).getD defaultGranularity
      timeZone := o.timeZone.or (overlay.timeZone.or profile.timeZone) }

/-- Whether a text starts like a URL of a broker. -/
def startsHttp (url : List Char) : Bool :=
  "http://".toList.isPrefixOf url || "https://".toList.isPrefixOf url

/-- The configuration, if its URL, timeout, time zone and granularity will do. -/
def check (c : Config) : Except ConfigError Config :=
  let url := Text.trimChars c.brokerUrl.toList
  if url = [] then .error .emptyUrl
  else if !startsHttp url then .error (.otherScheme (String.ofList url))
  else if c.timeoutSecs = 0 then .error .zeroTimeout
  else match TimeZone.resolve c.defaults.timeZone with
    | .error name => .error (.unknownZone (c.defaults.timeZone.getD "") name)
    | .ok _ => match Granularity.ofText c.defaults.granularity c.defaults.timeZone with
      | .error e => .error (.badGranularity c.defaults.granularity e)
      | .ok _ => .ok c

/-- Reads the files, merges the layers and checks the result. -/
def load (fs : FileSystem) (home : Option String) (o : Overrides) (paths : ConfigPaths) : Loading :=
  match readProfile fs paths with
  | .error e => ⟨[], .error e⟩
  | .ok profile =>
    match readOverlay fs home o paths with
    | .error e => ⟨profile.warnings, .error e⟩
    | .ok overlay => ⟨profile.warnings ++ overlay.warnings, check (merge o overlay profile)⟩

end Config
end BrokerQuery
