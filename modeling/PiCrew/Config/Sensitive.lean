/-
**The paths that only the user may set.**

`schema/config-schema.ts` (the marks and the nesting of `PiTeamsConfigSchema`) and
`schema/sensitive-config-paths.ts` (`isMarkedSensitive`, `walkProperties`, `collectSensitiveConfigPaths`). The
schema marks the properties that a project may not set. A marked property is not walked into.

* `sensitivePaths_eq` — what they are for the schema of the config.

A dotted path is the list of its segments.
-/

import Mathlib.Data.List.Basic

namespace PiCrew.Config

/-- **A schema**, with its `sensitive` mark: properties by key, members of a union, or neither. -/
inductive SchemaLike where
  | value (sensitive : Bool)
  | union (sensitive : Bool) (anyOf : List SchemaLike)
  | object (sensitive : Bool) (properties : List (String × SchemaLike))

namespace SchemaLike

def sensitive : SchemaLike → Bool
  | value sensitive | union sensitive _ | object sensitive _ => sensitive

def isMarkedSensitive : SchemaLike → Bool
  | union mark anyOf => mark || anyOf.any (·.sensitive)
  | schema => schema.sensitive

mutual

def walkProperties (above : List String) : List (String × SchemaLike) → List (List String)
  | [] => []
  | (key, property) :: rest =>
    (if property.isMarkedSensitive then [above ++ [key]] else walkProperty (above ++ [key]) property)
      ++ walkProperties above rest

def walkProperty (above : List String) : SchemaLike → List (List String)
  | value _ => []
  | union _ anyOf => walkBranches above anyOf
  | object _ properties => walkProperties above properties

def walkBranches (above : List String) : List SchemaLike → List (List String)
  | [] => []
  | branch :: rest => walkBranch above branch ++ walkBranches above rest

def walkBranch (above : List String) : SchemaLike → List (List String)
  | object _ properties => walkProperties above properties
  | _ => []

end

def collectSensitiveConfigPaths : SchemaLike → List (List String)
  | object _ properties => walkProperties [] properties
  | _ => []

end SchemaLike

section

open SchemaLike

def plain : SchemaLike := value false

def marked : SchemaLike := value true

def literals (count : Nat) : SchemaLike := union false (List.replicate count plain)

def markedLiterals (count : Nat) : SchemaLike := union true (List.replicate count plain)

def plains (keys : List String) : List (String × SchemaLike) := keys.map (·, plain)

def autonomousSchema : SchemaLike := object false
    [("profile", markedLiterals 4), ("enabled", marked), ("injectPolicy", marked),
      ("preferAsyncForLongTasks", marked), ("allowWorktreeSuggestion", marked), ("magicKeywords", marked)]

def limitsSchema : SchemaLike := object false
    (plains ["maxConcurrentWorkers", "allowUnboundedConcurrency", "maxTaskDepth", "maxChildrenPerTask",
      "maxRunMinutes", "maxRetriesPerTask", "maxTasksPerRun", "heartbeatStaleMs", "serializeOnPathOverlap"])

def modelFallbackSchema : SchemaLike := object false
    [("maxAutoFallbacks", plain), ("order", literals 2), ("requireCredentials", plain),
      ("quotaAwareOrdering", plain), ("defaultSubagentModel", plain)]

def runtimeSchema : SchemaLike := object false
    [("mode", markedLiterals 4), ("preferLiveSession", marked), ("allowChildProcessFallback", marked),
      ("maxTurns", plain), ("graceTurns", plain), ("taskTimeoutMs", plain), ("inheritContext", marked),
      ("sessionRecovery", plain), ("hermeticWorkers", plain), ("classifierEnabled", plain),
      ("classifierModel", plain), ("promptMode", literals 2), ("groupJoin", literals 3),
      ("groupJoinAckTimeoutMs", plain), ("requirePlanApproval", plain),
      ("completionMutationGuard", literals 3), ("effectivenessGuard", literals 4),
      ("yield", object false (plains ["enabled", "maxReminders", "reminderPrompt"])),
      ("liveSession", object false (plains ["responseTimeoutMs", "hungToolGraceMs"])),
      ("excludeContextBash", plain), ("handoffBudgetTokens", plain), ("agentExtensions", marked),
      ("surface", object false [("mode", literals 4), ("visibleAgents", plain)]),
      ("isolationPolicy", object true [("isolatedRoles", plain), ("defaultRuntime", literals 2)]),
      ("embeddedWorkers", object true (plains ["enabled", "roles", "maxConcurrent", "faultThreshold"])),
      ("modelFallback", modelFallbackSchema), ("workerTransport", literals 2)]

def controlSchema : SchemaLike := object false
    (plains ["enabled", "needsAttentionAfterMs", "consecutiveFailureThreshold", "longRunningMinutes"])

def worktreeSchema : SchemaLike := object false
    [("setupHook", marked), ("setupHookTimeoutMs", plain), ("linkNodeModules", plain), ("seedPaths", marked)]

def agentsSchema : SchemaLike := object false [("disableBuiltins", marked), ("overrides", marked)]

def toolsSchema : SchemaLike :=
  object false [("enableClaudeStyleAliases", plain), ("enableSteer", marked), ("terminateOnForeground", marked)]

def policySchema : SchemaLike :=
  object false [("requireIntentForDestructiveActions", marked), ("disabledCapabilities", marked)]

def notificationsSchema : SchemaLike := object false
    [("enabled", plain), ("severityFilter", plain), ("dedupWindowMs", plain), ("batchWindowMs", plain),
      ("quietHours", plain), ("sinkRetentionDays", plain),
      ("webhook", object true (plains ["url", "enabled", "secret", "allowLocalhost"]))]

def observabilitySchema : SchemaLike :=
  object false (plains ["enabled", "pollIntervalMs", "metricRetentionDays"])

def retryPolicySchema : SchemaLike := object false
    (plains ["maxAttempts", "backoffMs", "jitterRatio", "exponentialFactor", "retryableErrors", "maxTotalSpawns"])

def reliabilitySchema : SchemaLike := object false
    (("autoRetry", plain) :: ("retryPolicy", retryPolicySchema)
      :: plains ["autoRecover", "deadletterThreshold", "cleanupOrphanedTempDirs", "autoRepairIntervalMs",
        "forcePreflight", "ambientStatusInjection", "perWriteValidation", "scopeModels", "loopGuard"])

def otlpSchema : SchemaLike :=
  object false [("enabled", plain), ("endpoint", marked), ("headers", marked), ("intervalMs", plain)]

def uiSchema : SchemaLike := object false
    [("widgetPlacement", literals 3), ("widgetMaxLines", plain), ("inlinePanel", plain), ("powerbar", plain),
      ("dashboardPlacement", literals 2), ("dashboardWidth", plain), ("dashboardLiveRefreshMs", plain),
      ("autoOpenDashboard", plain), ("autoOpenDashboardForForegroundRuns", plain),
      ("autoCloseDashboardMs", plain), ("showModel", plain), ("showTokens", plain), ("showTools", plain),
      ("transcriptTailBytes", plain), ("mascotStyle", literals 2), ("mascotEffect", literals 9)]

def brokerSchema : SchemaLike := object false
    (plains ["enabled", "pathHashLen", "maxFrameBytes", "outboundQueueCap", "waitMethodsEnabled"])

def nestingSchema : SchemaLike :=
  object false [("enabled", marked), ("maxSlots", plain), ("maxDepth", plain)]

/-- **`PiTeamsConfigSchema`** -/
def configSchema : SchemaLike := object false
    [("asyncByDefault", marked), ("executeWorkers", marked), ("notifierIntervalMs", plain),
      ("requireCleanWorktreeLeader", marked), ("ignoreMethod", literals 2), ("autonomous", autonomousSchema),
      ("limits", limitsSchema), ("runtime", runtimeSchema), ("control", controlSchema),
      ("worktree", worktreeSchema), ("goalWrap", marked), ("agents", agentsSchema), ("tools", toolsSchema),
      ("telemetry", object false [("enabled", plain)]), ("policy", policySchema),
      ("notifications", notificationsSchema), ("observability", observabilitySchema),
      ("reliability", reliabilitySchema), ("otlp", otlpSchema), ("ui", uiSchema), ("broker", brokerSchema),
      ("nesting", nestingSchema), ("persistence", object false [("skipTasksFsync", plain)])]

def sensitivePaths : List (List String) := collectSensitiveConfigPaths configSchema

theorem sensitivePaths_eq : sensitivePaths =
    [["asyncByDefault"], ["executeWorkers"], ["requireCleanWorktreeLeader"], ["autonomous", "profile"],
      ["autonomous", "enabled"], ["autonomous", "injectPolicy"], ["autonomous", "preferAsyncForLongTasks"],
      ["autonomous", "allowWorktreeSuggestion"], ["autonomous", "magicKeywords"], ["runtime", "mode"],
      ["runtime", "preferLiveSession"], ["runtime", "allowChildProcessFallback"], ["runtime", "inheritContext"],
      ["runtime", "agentExtensions"], ["runtime", "isolationPolicy"], ["runtime", "embeddedWorkers"],
      ["worktree", "setupHook"], ["worktree", "seedPaths"], ["goalWrap"], ["agents", "disableBuiltins"],
      ["agents", "overrides"], ["tools", "enableSteer"], ["tools", "terminateOnForeground"],
      ["policy", "requireIntentForDestructiveActions"], ["policy", "disabledCapabilities"],
      ["notifications", "webhook"], ["otlp", "endpoint"], ["otlp", "headers"], ["nesting", "enabled"]] := by
  rfl

end

end PiCrew.Config
