/-
**What a config file is read as.**

`config/config-validation.ts` (`asRecord`, `parseConfig` and the parsers of its sections). A file is read key by
key: a key holds what its file has there if that passes the key's check, and `undefined` otherwise. A section
with no key defined is `undefined` itself. An OTLP endpoint with credentials in it is not read as anything:
the whole file is refused.

* `parseConfig` — a config, from its file.

The texts of the warnings and errors are left out.
-/

import PiCrew.Broker.SpawnPolicy
import PiCrew.Broker.Tokens
import PiCrew.Library.JsObjects

namespace PiCrew.Config

open JsObjects JsValue

inductive ConfigError where
  | notJson
  | tooDeep
  | credentials
  deriving DecidableEq, Repr

def toLowerCase (text : String) : List Char := text.toList.map Char.toLower

def dangerousObjectKeys : List String :=
  ["__proto__", "constructor", "prototype", "hasOwnProperty", "toString", "valueOf", "isPrototypeOf",
    "propertyIsEnumerable", "toLocaleString", "__defineGetter__", "__defineSetter__", "__lookupGetter__",
    "__lookupSetter__"]

/-- The check of `sanitizeObject`. It looks for the key in lower case, which finds no key with a capital. -/
def isDangerous (key : String) : Bool := dangerousObjectKeys.any (·.toList == toLowerCase key)

def asRecord (value : JsValue) : Option JsValue :=
  if value.isObject then some (value.withoutKeys isDangerous) else none

def parseWithSchema (check : JsValue → Bool) (value : JsValue) : JsValue :=
  if check value then value else undefined

def isBoolean : JsValue → Bool
  | .bool _ => true
  | _ => false

/-- An integer, or any number, that is not below `minimum` or above `maximum`. -/
def isNumber (integer : Bool) (minimum : Rat) (maximum : Option Rat) : JsValue → Bool
  | number value => (!integer || value.den == 1) && decide (minimum ≤ value) && maximum.all (value ≤ ·)
  | _ => false

def isLiteral (literals : List String) : JsValue → Bool
  | string text => literals.contains text
  | _ => false

def isString (accepts : String → Bool) : JsValue → Bool
  | string text => accepts text
  | _ => false

def isArrayOf (check : JsValue → Bool) : JsValue → Bool
  | array items => items.all check
  | _ => false

def minLength (least : Nat) (text : String) : Bool := least ≤ Broker.Tokens.codeUnits text

def maxLength (most : Nat) (text : String) : Bool := Broker.Tokens.codeUnits text ≤ most

/-- `^\d{2}:\d{2}-\d{2}:\d{2}$` -/
def isQuietHours (text : String) : Bool :=
  match text.toList with
  | [a, b, ':', c, d, '-', e, f, ':', g, h] => [a, b, c, d, e, f, g, h].all Char.isDigit
  | _ => false

/-- `^https?://` -/
def isHttpUrl (text : String) : Bool :=
  "http://".toList.isPrefixOf text.toList || "https://".toList.isPrefixOf text.toList

def parseBoolean : JsValue → JsValue := parseWithSchema isBoolean

def parseLiteral (literals : List String) : JsValue → JsValue := parseWithSchema (isLiteral literals)

def parseIntegerInRange (minimum maximum : Rat) : JsValue → JsValue :=
  parseWithSchema (isNumber true minimum (some maximum))

def maxSafeInteger : Rat := 9007199254740991

def parsePositiveInteger (maximum : Rat) : JsValue → JsValue := parseIntegerInRange 1 maximum

/-- `Type.Integer({ minimum })` -/
def parseIntegerFrom (minimum : Rat) : JsValue → JsValue := parseWithSchema (isNumber true minimum none)

/-- `Type.String({ minLength: 1 })` -/
def parseNonEmptyString : JsValue → JsValue := parseWithSchema (isString (minLength 1))

/-- What is a string, trimmed, in a list of values. -/
def trimmedItems (items : List JsValue) : List JsValue := items.filterMap fun
    | string text => if Broker.SpawnPolicy.trim text = "" then none else some (string (Broker.SpawnPolicy.trim text))
    | _ => none

def parseStringList (value : JsValue) : JsValue :=
  match parseWithSchema (isArrayOf (isString fun _ => true)) value with
  | array [] => array []
  | array items => if (trimmedItems items).isEmpty then undefined else array (trimmedItems items)
  | _ => undefined

def parseStringArrayOrFalse : JsValue → JsValue
  | .bool false => .bool false
  | string text =>
    if Broker.SpawnPolicy.trim text = "" then array []
    else parseStringList (array ((text.toList.splitOn ',').map fun part => string (String.ofList part)))
  | value => parseStringList value

abbrev Fields := List (String × (JsValue → JsValue))

def record (fields : Fields) (obj : JsValue) : JsValue :=
  object (fields.map fun field => (field.1, field.2 (obj.get field.1)))

/-- **A section**: an object with every key, if one of them is defined. -/
def parseSection (fields : Fields) (value : JsValue) : JsValue :=
  match asRecord value with
  | none => undefined
  | some obj => collapse (record fields obj)

/-- A section that owns only the keys that are defined. -/
def parsePolicyBlock (fields : Fields) (value : JsValue) : JsValue :=
  match parseSection fields value with
  | object members => (object members).withoutUndefined
  | _ => undefined

/-- `LIMIT_CEILINGS` -/
def dayMs : Rat := 24 * 60 * 60 * 1000

def autonomyProfiles : List String := ["manual", "suggested", "assisted", "aggressive"]

/-- A character that `.` does not match in a pattern. -/
def isLineTerminator (char : Char) : Bool :=
  char == '\n' || char == '\r' || char.toNat == 0x2028 || char.toNat == 0x2029

/-- `Type.Record(Type.String(), Type.Array(Type.String()))`: a key with a line end in it is not checked. -/
def isStringArrayRecord (value : JsValue) : Bool :=
  value.isObject && value.members.all fun member =>
    member.1.toList.any isLineTerminator || isArrayOf (isString fun _ => true) member.2

def parseStringArrayRecord (value : JsValue) : JsValue :=
  if isStringArrayRecord value then
    let result := value.members.foldl (fun result member =>
      match parseStringList member.2 with
      | array (item :: items) => result.set member.1 (array (item :: items))
      | _ => result) (object [])
    if result.keys = [] then undefined else result
  else undefined

def parseAutonomousConfig : JsValue → JsValue :=
  parseSection
    [("profile", parseLiteral autonomyProfiles), ("enabled", parseBoolean), ("injectPolicy", parseBoolean),
      ("preferAsyncForLongTasks", parseBoolean), ("allowWorktreeSuggestion", parseBoolean),
      ("magicKeywords", parseStringArrayRecord)]

def parseLimitsConfig : JsValue → JsValue :=
  parseSection
    [("maxConcurrentWorkers", parsePositiveInteger 1024), ("allowUnboundedConcurrency", parseBoolean),
      ("maxTaskDepth", parsePositiveInteger 100), ("maxChildrenPerTask", parsePositiveInteger 1000),
      ("maxRunMinutes", parsePositiveInteger 1440), ("maxRetriesPerTask", parsePositiveInteger 100),
      ("maxTasksPerRun", parsePositiveInteger 10000), ("heartbeatStaleMs", parsePositiveInteger dayMs),
      ("serializeOnPathOverlap", parseBoolean)]

def nestingFields : Fields :=
  [("enabled", parseBoolean), ("maxSlots", parsePositiveInteger 64), ("maxDepth", parsePositiveInteger 10)]

def parseNestingConfig : JsValue → JsValue := parseSection nestingFields

def parseIsolationPolicy : JsValue → JsValue :=
  parsePolicyBlock
    [("isolatedRoles", parseStringList), ("defaultRuntime", parseLiteral ["live-session", "child-process"])]

def parseSurfacePolicy : JsValue → JsValue :=
  parsePolicyBlock
    [("mode", parseLiteral ["auto", "tmux", "herdr", "off"]), ("visibleAgents", parseStringList)]

def parseEmbeddedWorkersPolicy : JsValue → JsValue :=
  parsePolicyBlock
    [("enabled", parseBoolean), ("roles", parseStringList), ("maxConcurrent", parsePositiveInteger 1024),
      ("faultThreshold", parsePositiveInteger 100)]

def parseModelFallbackConfig : JsValue → JsValue :=
  parseSection
    [("maxAutoFallbacks", parseIntegerFrom 0), ("order", parseLiteral ["parentFirst", "asIs"]),
      ("requireCredentials", parseBoolean), ("quotaAwareOrdering", parseBoolean),
      ("defaultSubagentModel", parseNonEmptyString)]

def parseHandoffBudgetTokens : JsValue → JsValue := parseIntegerInRange 1 1000000

/-- `runtime.yield` -/
def parseYield : JsValue → JsValue :=
  parseSection [("enabled", parseBoolean), ("maxReminders", parseIntegerFrom 0),
      ("reminderPrompt", parseWithSchema (isString (maxLength 1000)))]

/-- `runtime.liveSession` -/
def parseLiveSession : JsValue → JsValue :=
  parseSection
    [("responseTimeoutMs", parsePositiveInteger dayMs), ("hungToolGraceMs", parsePositiveInteger dayMs)]

/-- `inheritContext` is true where the file does not say. -/
def parseInheritContext (value : JsValue) : JsValue :=
  match parseBoolean value with
  | undefined => .bool true
  | parsed => parsed

def runtimeFields : Fields :=
  [("mode", parseLiteral ["auto", "scaffold", "child-process", "live-session"]),
    ("preferLiveSession", parseBoolean), ("allowChildProcessFallback", parseBoolean),
    ("maxTurns", parsePositiveInteger 10000), ("graceTurns", parsePositiveInteger 1000),
    ("taskTimeoutMs", parsePositiveInteger dayMs), ("inheritContext", parseInheritContext),
    ("promptMode", parseLiteral ["replace", "append"]), ("groupJoin", parseLiteral ["off", "group", "smart"]),
    ("groupJoinAckTimeoutMs", parsePositiveInteger 86400000), ("requirePlanApproval", parseBoolean),
    ("completionMutationGuard", parseLiteral ["off", "warn", "fail"]),
    ("effectivenessGuard", parseLiteral ["off", "warn", "block", "fail"]), ("yield", parseYield),
    ("liveSession", parseLiveSession), ("excludeContextBash", parseBoolean),
    ("handoffBudgetTokens", parseHandoffBudgetTokens), ("agentExtensions", parseStringList),
    ("isolationPolicy", parseIsolationPolicy), ("embeddedWorkers", parseEmbeddedWorkersPolicy),
    ("surface", parseSurfacePolicy), ("modelFallback", parseModelFallbackConfig),
    ("sessionRecovery", parseBoolean), ("hermeticWorkers", parseBoolean),
    ("workerTransport", parseLiteral ["stdio", "rpc"]), ("classifierEnabled", parseBoolean),
    ("classifierModel", parseNonEmptyString)]

/-- The runtime section is there even if the file has none. -/
def parseRuntimeConfig (value : JsValue) : JsValue :=
  match asRecord value with
  | none => object [("inheritContext", .bool true)]
  | some obj => collapse (record runtimeFields obj)

def parseControlConfig : JsValue → JsValue :=
  parseSection
    [("enabled", parseBoolean), ("needsAttentionAfterMs", parsePositiveInteger maxSafeInteger),
      ("consecutiveFailureThreshold", parsePositiveInteger maxSafeInteger),
      ("longRunningMinutes", parsePositiveInteger maxSafeInteger)]

def brokerFields : Fields := [("enabled", parseBoolean), ("pathHashLen", parseIntegerInRange 4 32),
    ("maxFrameBytes", parseIntegerInRange 1024 1048576), ("outboundQueueCap", parseIntegerInRange 32 4096),
    ("waitMethodsEnabled", parseBoolean)]

def parseBrokerConfig : JsValue → JsValue := parseSection brokerFields

def parsePersistenceConfig : JsValue → JsValue := parseSection [("skipTasksFsync", parseBoolean)]

/-- `worktree.setupHook`, trimmed. -/
def parseSetupHook : JsValue → JsValue
  | string text => if Broker.SpawnPolicy.trim text = "" then undefined else string (Broker.SpawnPolicy.trim text)
  | _ => undefined

def parseWorktreeConfig : JsValue → JsValue :=
  parseSection [("setupHook", parseSetupHook), ("setupHookTimeoutMs", parsePositiveInteger 300000),
      ("linkNodeModules", parseBoolean), ("seedPaths", parseStringList)]

/-- The mode is the one that runs no commands. -/
def isTextOnly (verification : JsValue) : Bool :=
  match verification.get "mode" with
  | string text => text == "text-only"
  | _ => false

/-- `verification` of a wrapped workflow, if it has commands or a mode. -/
def parseVerification (value : JsValue) : Option JsValue := do
  let verification ← asRecord value
  let commands := match verification.get "commands" with
    | array items => some (items.filter fun | string text => text != "" | _ => false)
    | _ => none
  if commands.isSome || isTextOnly verification then
    some (object (("commands", array (commands.getD []))
      :: if isTextOnly verification then [("mode", string "text-only")] else []))
  else none

def goalWrapFields : Fields :=
  [("enabled", parseBoolean), ("maxTurns", parseIntegerInRange 1 50), ("evaluatorModel", parseNonEmptyString),
    ("budgetTotal", parseIntegerFrom 1000), ("budgetUnlimited", parseBoolean)]

def parseGoalWrapWorkflow (value : JsValue) : JsValue :=
  match asRecord value with
  | none => undefined
  | some entry =>
    let parsed := record goalWrapFields entry
    collapse (match parseVerification (entry.get "verification") with
      | none => parsed
      | some verification => parsed.set "verification" verification)

def parseGoalWrapConfig (value : JsValue) : JsValue :=
  match asRecord value with
  | none => undefined
  | some obj =>
    collapse (obj.members.foldl (fun result member =>
      match parseGoalWrapWorkflow member.2 with
      | undefined => result
      | parsed => result.set member.1 parsed) (object []))

/-- A string, or `false`. -/
def isStringOrFalse : JsValue → Bool
  | string _ => true
  | .bool value => !value
  | _ => false

def parseAgentOverride : JsValue → JsValue :=
  parseSection [("disabled", parseBoolean), ("model", parseWithSchema isStringOrFalse),
      ("fallbackModels", parseStringArrayOrFalse), ("thinking", parseWithSchema isStringOrFalse),
      ("tools", parseStringArrayOrFalse), ("skills", parseStringArrayOrFalse)]

/-- The overrides by name. An assignment to `__proto__` makes no own key. -/
def parseOverrides (value : JsValue) : JsValue :=
  collapse (value.members.foldl (fun overrides member =>
    let name := Broker.SpawnPolicy.trim member.1
    match parseAgentOverride member.2 with
    | undefined => overrides
    | parsed => if name = "" || name = "__proto__" then overrides else overrides.set name parsed) (object []))

def parseAgentsConfig : JsValue → JsValue :=
  parseSection [("disableBuiltins", parseBoolean), ("overrides", parseOverrides)]

def parseToolsConfig : JsValue → JsValue :=
  parseSection [("enableClaudeStyleAliases", parseBoolean), ("enableSteer", parseBoolean),
      ("terminateOnForeground", parseBoolean)]

def parseTelemetryConfig : JsValue → JsValue := parseSection [("enabled", parseBoolean)]

def parsePolicyConfig : JsValue → JsValue :=
  parseSection [("requireIntentForDestructiveActions", parseBoolean),
      ("disabledCapabilities", parseWithSchema (isArrayOf (isString fun _ => true)))]

/-- `notifications.webhook`: its `url` is the empty string where the file has none. -/
def parseWebhook (value : JsValue) : JsValue :=
  match asRecord value with
  | none => undefined
  | some webhook =>
    object [("url", match parseNonEmptyString (webhook.get "url") with
          | undefined => string ""
          | url => url),
        ("enabled", parseBoolean (webhook.get "enabled")),
        ("secret", parseNonEmptyString (webhook.get "secret")),
        ("allowLocalhost", parseBoolean (webhook.get "allowLocalhost"))]

def parseNotificationsConfig : JsValue → JsValue :=
  parseSection [("enabled", parseBoolean),
      ("severityFilter", parseWithSchema (isArrayOf (isLiteral ["info", "warning", "error", "critical"]))),
      ("dedupWindowMs", parseIntegerFrom 1000), ("batchWindowMs", parseIntegerInRange 0 60000),
      ("quietHours", parseWithSchema (isString isQuietHours)), ("sinkRetentionDays", parsePositiveInteger 90),
      ("webhook", parseWebhook)]

def parseObservabilityConfig : JsValue → JsValue :=
  parseSection [("enabled", parseBoolean), ("pollIntervalMs", parseIntegerInRange 1000 60000),
      ("metricRetentionDays", parsePositiveInteger 90)]

/-- `reliability.retryPolicy` -/
def parseRetryPolicy : JsValue → JsValue :=
  parseSection
    [("maxAttempts", parsePositiveInteger 10), ("backoffMs", parseIntegerInRange 100 60000),
      ("jitterRatio", parseWithSchema (isNumber false 0 (some 1))),
      ("exponentialFactor", parseWithSchema (isNumber false 1 (some 5))), ("retryableErrors", parseStringList),
      ("maxTotalSpawns", parsePositiveInteger maxSafeInteger)]

def parseReliabilityConfig : JsValue → JsValue :=
  parseSection
    [("autoRetry", parseBoolean), ("retryPolicy", parseRetryPolicy), ("autoRecover", parseBoolean),
      ("deadletterThreshold", parsePositiveInteger maxSafeInteger), ("cleanupOrphanedTempDirs", parseBoolean),
      ("autoRepairIntervalMs", parseIntegerFrom 0), ("forcePreflight", parseBoolean),
      ("ambientStatusInjection", parseBoolean), ("perWriteValidation", parseBoolean),
      ("loopGuard", parseBoolean), ("scopeModels", parseBoolean)]

def reservedHeaderKeys : List String :=
  ["__proto__", "constructor", "prototype", "hasownproperty", "tostring", "valueof", "isprototypeof",
    "propertyisenumerable", "tolocalestring", "__definegetter__", "__definesetter__", "__lookupgetter__",
    "__lookupsetter__"]

/-- `^[a-zA-Z][a-zA-Z0-9_-]{0,127}$`, and not reserved. -/
def isHeaderKey (key : String) : Bool := !(reservedHeaderKeys.any (·.toList == toLowerCase key)) &&
    match key.toList with
    | [] => false
    | first :: rest =>
      first.isAlpha && rest.length ≤ 127 && rest.all fun char => char.isAlphanum || char == '_' || char == '-'

/-- `otlp.headers` -/
def parseHeaders (value : JsValue) : JsValue :=
  match asRecord value with
  | none => undefined
  | some raw =>
    collapse (raw.members.foldl (fun headers member =>
      match member.2 with
      | string text => if isHeaderKey member.1 then headers.set member.1 (string text) else headers
      | _ => headers) (object []))

def otlpFields : Fields :=
  [("enabled", parseBoolean), ("endpoint", parseWithSchema (isString isHttpUrl)), ("headers", parseHeaders),
    ("intervalMs", parseIntegerFrom 5000)]

/-- `^https?:\/\/[^/?#]*@` -/
def hasCredentials : JsValue → Bool
  | string text =>
    isHttpUrl text &&
      let rest := ((text.toList.dropWhile (· != '/')).drop 2)
      (rest.takeWhile fun char => char != '/' && char != '?' && char != '#').contains '@'
  | _ => false

def parseOtlpConfig (value : JsValue) : Except ConfigError JsValue :=
  let otlp := parseSection otlpFields value
  if hasCredentials (otlp.get "endpoint") then .error .credentials else .ok otlp

def parseUiConfig : JsValue → JsValue :=
  parseSection [("widgetPlacement", parseLiteral ["aboveEditor", "belowEditor", "bottom"]),
      ("widgetMaxLines", parsePositiveInteger 50), ("inlinePanel", parseBoolean), ("powerbar", parseBoolean),
      ("dashboardPlacement", parseLiteral ["center", "right"]), ("dashboardWidth", parseIntegerInRange 32 120),
      ("dashboardLiveRefreshMs", parseIntegerInRange 250 60000), ("autoOpenDashboard", parseBoolean),
      ("autoOpenDashboardForForegroundRuns", parseBoolean), ("autoCloseDashboardMs", parseIntegerFrom 0),
      ("showModel", parseBoolean), ("showTokens", parseBoolean), ("showTools", parseBoolean),
      ("transcriptTailBytes", parseIntegerInRange 1024 (50 * 1024 * 1024)),
      ("mascotStyle", parseLiteral ["cat", "armin"]),
      ("mascotEffect", parseLiteral
        ["random", "none", "typewriter", "scanline", "rain", "fade", "crt", "glitch", "dissolve"])]

/-- The keys of a config before and behind `otlp`, the only one whose parser may throw. -/
def configFieldsBefore : Fields :=
  [("asyncByDefault", parseBoolean), ("executeWorkers", parseBoolean),
    ("notifierIntervalMs", parseWithSchema (isNumber false 1000 none)),
    ("requireCleanWorktreeLeader", parseBoolean), ("ignoreMethod", parseLiteral ["gitignore", "exclude"]),
    ("autonomous", parseAutonomousConfig), ("limits", parseLimitsConfig), ("nesting", parseNestingConfig),
    ("runtime", parseRuntimeConfig), ("control", parseControlConfig), ("worktree", parseWorktreeConfig),
    ("goalWrap", parseGoalWrapConfig), ("agents", parseAgentsConfig), ("tools", parseToolsConfig),
    ("telemetry", parseTelemetryConfig), ("policy", parsePolicyConfig),
    ("notifications", parseNotificationsConfig), ("observability", parseObservabilityConfig),
    ("reliability", parseReliabilityConfig)]

def configFieldsBehind : Fields :=
  [("ui", parseUiConfig), ("broker", parseBrokerConfig), ("persistence", parsePersistenceConfig)]

/-- **A config**: `parseConfig`. -/
def parseConfig (raw : JsValue) : Except ConfigError JsValue :=
  match asRecord raw with
  | none => .ok (object [])
  | some obj =>
    (parseOtlpConfig (obj.get "otlp")).map fun otlp =>
      object ((record configFieldsBefore obj).members ++ ("otlp", otlp) :: (record configFieldsBehind obj).members)

end PiCrew.Config
