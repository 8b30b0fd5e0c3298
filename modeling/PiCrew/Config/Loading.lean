/-
**How the effective config is loaded.**

`config/config.ts` (`readConfigRecord`, `readOptionalConfig`, `loadConfig`) and `config/defaults.ts`
(`DEFAULT_BROKER`, `DEFAULT_NESTING`, `DEFAULT_PERSISTENCE`, `resolveBrokerEnvOverride`). The config of the user is
merged onto what is left of each of the two files of the project, and `broker`, `nesting` and `persistence` are put
onto their defaults.

* `loadConfig` — the effective config.

A file has a size, and a value unless it cannot be read as JSON. The environment is given as the variables that
are looked up. The cached result of an earlier call, the paths and the warnings are left out.
-/

import PiCrew.Config.Merging
import PiCrew.Config.Sanitizing

namespace PiCrew.Config

open JsObjects JsValue

/-- **A config file**: there is none, or it has a size and, if it is JSON, a value. -/
inductive ConfigFile where
  | missing
  | text (size : Nat) (json : Option JsValue)

def maxConfigSize : Nat := 10 * 1024 * 1024

def maxJsonDepth : Nat := 100

/-- The record in a file. What is too large, or is not a record, is read as an empty one. -/
def readConfigRecord : ConfigFile → Except ConfigError JsValue
  | .missing => .ok (object [])
  | .text size json =>
    if maxConfigSize < size then .ok (object [])
    else
      match json with
      | none => .error .notJson
      | some raw =>
        if !raw.isObject then .ok (object [])
        else if maxJsonDepth < raw.depth then .error .tooDeep
        else .ok raw

/-- What `readOptionalConfig` returns. -/
structure OptionalConfig where
  found : Bool
  config : JsValue

/-- **A file that is refused counts as an empty one.** -/
def readOptionalConfig : ConfigFile → OptionalConfig
  | .missing => ⟨false, object []⟩
  | file =>
    match (readConfigRecord file).bind parseConfig with
    | .ok config => ⟨true, config⟩
    | .error _ => ⟨true, object []⟩

section

def defaultBroker : JsValue :=
  object [("enabled", .bool true), ("pathHashLen", .number 8), ("maxFrameBytes", .number 262144),
      ("outboundQueueCap", .number 256), ("waitMethodsEnabled", .bool true)]

def defaultNesting : JsValue := object [("enabled", .bool true), ("maxDepth", .number 4)]

def defaultPersistence : JsValue := object [("skipTasksFsync", .bool false)]

/-- The environment: `PI_CREW_BROKER`, and `PI_CREW_PERSISTENCE_SKIP_TASKS_FSYNC` as a flag. -/
structure CrewEnv where
  broker : Option String := none
  skipTasksFsync : Option Bool := none

variable (env : CrewEnv)

def resolveBrokerEnvOverride (parsed : JsValue) : JsValue :=
  if env.broker = some "1" ∨ env.broker = some "0" then
    parsed.orEmpty.set "enabled" (.bool (env.broker == some "1"))
  else parsed

def applyBrokerEnvOverrideAndDefaults (parsed : JsValue) : JsValue :=
  defaultBroker.spread (resolveBrokerEnvOverride env parsed)

def applyNestingDefaults (parsed : JsValue) : JsValue := defaultNesting.spread parsed

def resolvePersistenceEnvOverrideAndDefaults (parsed : JsValue) : JsValue :=
  (defaultPersistence.spread parsed).spread (match env.skipTasksFsync with
      | none => object []
      | some flag => object [("skipTasksFsync", .bool flag)])

end

section

/-- The files of the user: the one in the place where it was before, and the one in its place now. -/
structure UserFiles where
  legacy : ConfigFile := .missing
  user : ConfigFile := .missing

/-- The files of a project: `config.json` and `.pi/pi-crew.json`. -/
structure ProjectFiles where
  project : ConfigFile := .missing
  piCrewJson : ConfigFile := .missing

structure ProjectPaths where
  project : String
  piCrewJson : String

def userConfig (files : UserFiles) : JsValue :=
  let legacyConfig := readOptionalConfig files.legacy
  mergeConfig (if legacyConfig.found then legacyConfig.config else object [])
    (readOptionalConfig files.user).config

variable (paths : ProjectPaths)

/-- The user's config on what is left of `config.json`. -/
def mergeProject (file : ConfigFile) (config : JsValue) : JsValue :=
  let projectConfig := readOptionalConfig file
  let effectiveConfig :=
    if projectConfig.found then
      mergeConfig (object []) (sanitizeProjectConfig paths.project projectConfig.config).config
    else object []
  mergeConfig effectiveConfig config

/-- And that on what is left of `pi-crew.json`. -/
def mergePiCrewJson (file : ConfigFile) (config : JsValue) : JsValue :=
  let piCrewJsonConfig := readOptionalConfig file
  if piCrewJsonConfig.found then
    mergeConfig (sanitizeProjectConfig paths.piCrewJson piCrewJsonConfig.config).config config
  else config

def withDefaults (env : CrewEnv) (config : JsValue) : JsValue :=
  (((object config.members).set "broker" (applyBrokerEnvOverrideAndDefaults env (config.get "broker"))).set
    "nesting" (applyNestingDefaults (config.get "nesting"))).set
    "persistence" (resolvePersistenceEnvOverrideAndDefaults env (config.get "persistence"))

/-- **`loadConfig`**, in a project. -/
def loadConfig (env : CrewEnv) (user : UserFiles) (files : ProjectFiles) : JsValue :=
  withDefaults env
    (mergePiCrewJson paths files.piCrewJson (mergeProject paths files.project (userConfig user)))

end

end PiCrew.Config
