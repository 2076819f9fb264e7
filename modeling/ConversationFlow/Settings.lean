import ConversationFlow.Executable.Flow
import ConversationFlow.Failure
import ConversationFlow.Job
import ConversationFlow.Json.Reader
import ConversationFlow.Text.Lowercase

/-!
# Settings

What can be set from outside: by keywords, whose values are documents, and by the variables of an
environment, whose values are texts. A keyword wins over a variable. Names are matched without
regard to case.
-/

namespace ConversationFlow

open Schema

inductive LogLevel where
  | debug
  | info
  | warning
  | error
  | critical
deriving DecidableEq, Repr

instance : Choice LogLevel where
  all := [.debug, .info, .warning, .error, .critical]
  name
    | .debug => "DEBUG"
    | .info => "INFO"
    | .warning => "WARNING"
    | .error => "ERROR"
    | .critical => "CRITICAL"

structure Settings where
  environment : Text
  logLevel : LogLevel
  flowTimeoutSeconds : Int
  flowMaxIterations : Int
  flowErrorBehavior : Executable.ErrorBehavior
  passthroughNodeTypes : List Text
  warnUnreachableNodes : Bool
deriving DecidableEq

namespace Settings

def plain : Settings := ⟨"dev", .info, 3600, 100, .fail, [], true⟩

def environmentKey : Key := ⟨"ENVIRONMENT", "environment"⟩
def logLevelKey : Key := ⟨"LOG_LEVEL", "log_level"⟩
def flowTimeoutSecondsKey : Key := ⟨"FLOW_TIMEOUT_SECONDS", "flow_timeout_seconds"⟩
def flowMaxIterationsKey : Key := ⟨"FLOW_MAX_ITERATIONS", "flow_max_iterations"⟩
def flowErrorBehaviorKey : Key := ⟨"FLOW_ERROR_BEHAVIOR", "flow_error_behavior"⟩
def passthroughNodeTypesKey : Key := ⟨"PASSTHROUGH_NODE_TYPES", "passthrough_node_types"⟩
def warnUnreachableNodesKey : Key := ⟨"WARN_UNREACHABLE_NODES", "warn_unreachable_nodes"⟩

def keys : List Key :=
  [environmentKey, logLevelKey, flowTimeoutSecondsKey, flowMaxIterationsKey, flowErrorBehaviorKey,
    passthroughNodeTypesKey, warnUnreachableNodesKey]

/-- The last value under a name that differs from a key in case at most. -/
def lastNamed? {α : Type} (key : Key) (entries : List (Text × α)) : Option α :=
  entries.reverse.findSome? fun (name, a) => if Text.lower name = key.plain then some a else none

/-- The spelling and the value of a keyword: the name in capitals comes first, then the one in small
letters, then any other spelling, which counts as the one in capitals. -/
def keyword? (keywords : List (Text × Json)) (key : Key) : Option (Text × Json) :=
  match Fields.find? ⟨keywords⟩ key with
  | some found => some found
  | none => (lastNamed? key keywords).map (key.document, ·)

/-- The value of a variable: a list has to be written as a document, of which null counts as not
set; everything else is a text. Fails if there is no document. -/
def fromVariable (environment : List (String × String)) (key : Key) :
    Except Text (Option (Text × Json)) :=
  match lastNamed? key (environment.map fun (name, s) => (.whole name, s)) with
  | none => .ok none
  | some s =>
    if key = passthroughNodeTypesKey then
      match Json.read (.none s.length) (Text.symbols s) with
      | .ok .null => .ok none
      | .ok v => .ok (some (key.document, v))
      | .error _ => .error key.plain
    else .ok (some (key.document, .str s))

/-- What is set of some keys, keywords before the environment. -/
def given (keywords : List (Text × Json)) (environment : List (String × String)) :
    List Key → Except Text (List (Text × Json))
  | [] => .ok []
  | key :: rest => do
    let fallback ← fromVariable environment key
    let more ← given keywords environment rest
    match (keyword? keywords key).or fallback with
    | some found => pure (found :: more)
    | none => pure more

def usualEnvironments : List Text := ["dev", "development", "qa", "uat", "prod"]

def environmentName (v : Json) : Reading Text :=
  (text v).map Text.lower

/-- What is recorded of the environment that is set: a warning if it is not a known one. -/
def environmentEvents (fields : Fields) : List Event :=
  match fields.find? environmentKey with
  | some (_, .str s) =>
    if Text.lower s ∈ usualEnvironments then [] else [.unusualEnvironment s usualEnvironments]
  | _ => []

/-- The capital of a letter, if that is one of ASCII: the dotless i and the long s have one too. -/
def capital (c : Char) : Char :=
  if c.toNat = 0x131 then 'I' else if c.toNat = 0x17F then 'S' else c.toUpper

/-- A level of logging, in letters of any case. -/
def readLogLevel (v : Json) : Reading LogLevel :=
  (text v).andThen fun s =>
    match Choice.ofName? (s.mapRuns fun run => String.ofList (run.toList.map capital)) with
    | some level => .accepted level
    | none => .refuse (.rejected ("Unknown log level '" ++ s ++ "'")) v

def ofFields (f : Fields) : Reading Settings :=
  Settings.mk
    <$> f.defaulted environmentKey plain.environment environmentName
    <*> f.defaulted logLevelKey plain.logLevel readLogLevel
    <*> f.defaulted flowTimeoutSecondsKey plain.flowTimeoutSeconds integer
    <*> f.defaulted flowMaxIterationsKey plain.flowMaxIterations integer
    <*> f.defaulted flowErrorBehaviorKey plain.flowErrorBehavior choice
    <*> f.defaulted passthroughNodeTypesKey plain.passthroughNodeTypes (list .values text)
    <*> f.defaulted warnUnreachableNodesKey plain.warnUnreachableNodes boolean

/-- Why there are no settings: a variable that holds no document, or wrong values. -/
inductive Failure where
  | unreadable (name : Text)
  | refused (fault : Fault)
deriving DecidableEq

def load (keywords : List (Text × Json)) (environment : List (String × String)) :
    Job Failure Settings := do
  let entries ← Job.of ((given keywords environment keys).mapError .unreadable)
  (environmentEvents ⟨entries⟩).forM Job.record
  Job.of ((Fault.ofReading "Settings" (ofFields ⟨entries⟩)).mapError .refused)

def write (s : Settings) : Json :=
  .obj
    [(environmentKey.plain, .str s.environment),
      (logLevelKey.plain, writeChoice s.logLevel),
      (flowTimeoutSecondsKey.plain, .int s.flowTimeoutSeconds),
      (flowMaxIterationsKey.plain, .int s.flowMaxIterations),
      (flowErrorBehaviorKey.plain, writeChoice s.flowErrorBehavior),
      (passthroughNodeTypesKey.plain, writeTexts s.passthroughNodeTypes),
      (warnUnreachableNodesKey.plain, .bool s.warnUnreachableNodes)]

/-- The configuration that every compiled flow gets. -/
def flowConfig (s : Settings) : Executable.FlowConfig where
  timeoutSeconds := s.flowTimeoutSeconds
  maxIterations := s.flowMaxIterations
  errorBehavior := s.flowErrorBehavior
  fallbackNodeId := none
  definitions := []

end Settings

end ConversationFlow
