/-
The data contracts of the runtime: tasks and their audit trail, capabilities,
policy decisions, retry and escalation records, events and guild suggestions.
-/
import Mathlib.Data.Rat.Defs
import Conductor.Python.Value

namespace Conductor

abbrev TaskId := String

inductive TaskStatus where
  | pending
  | running
  | completed
  | failed
  | awaitingApproval
  | approved
  | policyDenied
  | cancelled
  | escalated
deriving DecidableEq, Repr

def TaskStatus.value : TaskStatus → String
  | .pending => "pending"
  | .running => "running"
  | .completed => "completed"
  | .failed => "failed"
  | .awaitingApproval => "awaiting_approval"
  | .approved => "approved"
  | .policyDenied => "policy_denied"
  | .cancelled => "cancelled"
  | .escalated => "escalated"

/-- Input used to create an executable task. -/
structure TaskSubmission where
  name : String
  capability : String
  input : Dict
  metadata : Dict
  maxRetries : Int
  workflowId : Option String
deriving Repr

structure TaskResult where
  success : Bool
  output : Value
  error : Option String
  metadata : Dict
  startedAt : Option Time
  completedAt : Option Time
deriving Repr

/-- A single recorded state transition on a task. -/
structure AuditEntry where
  timestamp : Time
  actor : String
  action : String
  fromStatus : Option TaskStatus
  toStatus : Option TaskStatus
  metadata : Dict
deriving Repr

structure TaskRecord where
  taskId : TaskId
  name : String
  capability : String
  input : Dict
  metadata : Dict
  status : TaskStatus
  result : Option TaskResult
  attempt : Int
  maxRetries : Int
  workflowId : Option String
  archivedAt : Option Time
  auditTrail : List AuditEntry
  createdAt : Time
  updatedAt : Time
deriving Repr

inductive RiskLevel where
  | low
  | medium
  | high
  | critical
deriving DecidableEq, Repr

def RiskLevel.value : RiskLevel → String
  | .low => "low"
  | .medium => "medium"
  | .high => "high"
  | .critical => "critical"

structure CapabilityDescriptor where
  name : String
  description : String
  riskLevel : RiskLevel
  tags : List String
  requireApproval : Bool
deriving DecidableEq, Repr

/-- Runtime context made available to every capability invocation. -/
structure CapabilityContext where
  taskId : TaskId
  taskName : String
  workdir : String
deriving DecidableEq, Repr

structure CapabilityResult where
  output : Value
  metadata : Dict
deriving Repr

structure CapabilityExecutionControls where
  timeoutSeconds : Option Rat
  minIntervalSeconds : Option Rat
deriving Repr

inductive PolicyDecisionType where
  | allow
  | deny
  | requireApproval
deriving DecidableEq, Repr

def PolicyDecisionType.value : PolicyDecisionType → String
  | .allow => "allow"
  | .deny => "deny"
  | .requireApproval => "require_approval"

structure PolicyContext where
  capability : CapabilityDescriptor
  workdir : String
deriving Repr

structure PolicyDecision where
  decision : PolicyDecisionType
  reason : Option String
  metadata : Dict
deriving Repr

/-- Structured context from a failed task attempt. -/
structure FailureContext where
  taskId : TaskId
  capability : String
  attempt : Int
  maxRetries : Int
  errorType : String
  errorMessage : String
  inputFingerprint : Option String
  metadata : Dict
deriving Repr

def FailureContext.modelDump (f : FailureContext) : Dict :=
  [("task_id", .str f.taskId), ("capability", .str f.capability),
    ("attempt", .int f.attempt), ("max_retries", .int f.maxRetries),
    ("error_type", .str f.errorType), ("error_message", .str f.errorMessage),
    ("input_fingerprint", .ofStr? f.inputFingerprint), ("metadata", .dict f.metadata)]

structure RetryDecision where
  shouldRetry : Bool
  delaySeconds : Option Rat
  adjustedInput : Option Dict
  reason : Option String
  escalate : Bool
deriving Repr

structure EscalationRecord where
  taskId : TaskId
  capability : String
  totalAttempts : Int
  failureHistory : List FailureContext
  escalatedAt : Time
  reason : Option String
deriving Repr

def EscalationRecord.modelDump (r : EscalationRecord) : Dict :=
  [("task_id", .str r.taskId), ("capability", .str r.capability),
    ("total_attempts", .int r.totalAttempts),
    ("failure_history", .list (r.failureHistory.map fun f => .dict f.modelDump)),
    ("escalated_at", .datetime r.escalatedAt), ("reason", .ofStr? r.reason)]

inductive EventType where
  | taskStarted
  | taskCompleted
  | taskFailed
  | taskRetry
  | taskPolicyDenied
  | taskAwaitingApproval
  | taskApproved
  | taskCancelled
  | taskEscalated
  | guildMeetingCompleted
deriving DecidableEq, Repr

def EventType.value : EventType → String
  | taskStarted => "task_started"
  | taskCompleted => "task_completed"
  | taskFailed => "task_failed"
  | taskRetry => "task_retry"
  | taskPolicyDenied => "task_policy_denied"
  | taskAwaitingApproval => "task_awaiting_approval"
  | taskApproved => "task_approved"
  | taskCancelled => "task_cancelled"
  | taskEscalated => "task_escalated"
  | guildMeetingCompleted => "guild_meeting_completed"

/-- Structured event emitted at each task state transition. -/
structure TaskEvent where
  eventType : EventType
  taskId : TaskId
  taskName : String
  capability : String
  status : TaskStatus
  attempt : Int
  timestamp : Time
  workflowId : Option String
  error : Option String
  metadata : Dict
deriving Repr

structure FailureFingerprint where
  capability : String
  errorType : String
  inputFingerprint : String
deriving DecidableEq, Repr

def FailureFingerprint.toKey (f : FailureFingerprint) : String :=
  f.capability ++ ":" ++ f.errorType ++ ":" ++ f.inputFingerprint

/-- A resolution hint returned by a peer suggestion engine.  The confidence, a
float, is carried by its `repr`. -/
structure GuildSuggestion where
  fingerprint : FailureFingerprint
  resolutionHint : Option String
  approachAdjustment : Dict
  sourceRole : Option String
  sourceProject : Option String
  confidence : String
deriving Repr

end Conductor
