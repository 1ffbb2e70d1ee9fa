import FireCrow.Library.Text

/-!
# Findings

The scanner finding as the adapters build it and the canonical audit reads it.
A job's status is here as well; the state that the pipeline threads through
its phases belongs to the pipeline.
-/

namespace FireCrow.Schemas

open FireCrow.Library

inductive Severity where
  | critical
  | high
  | medium
  | low
  | info
  | unknown
deriving DecidableEq, Repr

namespace Severity

def asStr : Severity → Text
  | .critical => "critical"
  | .high => "high"
  | .medium => "medium"
  | .low => "low"
  | .info => "info"
  | .unknown => "unknown"

end Severity

/-- The status of an audit job, and of one execution of it. -/
inductive JobStatus where
  | queued
  | running
  | completed
  | failed
  | cancelled
  | partial_
  | engineUnavailable
deriving DecidableEq, Repr

namespace JobStatus

def asStr : JobStatus → Text
  | .queued => "queued"
  | .running => "running"
  | .completed => "completed"
  | .failed => "failed"
  | .cancelled => "cancelled"
  | .partial_ => "partial"
  | .engineUnavailable => "engine_unavailable"

/-- Terminal job outcomes. -/
def isTerminal : JobStatus → Bool
  | .queued => false
  | .running => false
  | _ => true

end JobStatus

structure Finding where
  id : Text
  agentSource : Text
  title : Text
  description : Text
  severity : Severity
  evidence : Option Text
  remediation : Option Text
  cweId : Option Text
  owaspCategory : Option Text
  confidence : Option Text
  scannerName : Option Text
  scannerMode : Option Text
  filePath : Option Text
  lineNumber : Option Int32
  metadataJson : Option Text
deriving DecidableEq

end FireCrow.Schemas
