import Scorecard.Rule.Basic
import Scorecard.Snapshot.Codec

/-!
# The rule on vulnerable dependencies

A criterion is unmet when a dependency has a known vulnerability of some level or a more
serious one, and partly met when there is one from a milder level on.
-/

namespace Scorecard.Rule.Audit

open Decode

/-- The parameters. -/
structure Limits where
  failOn : Vulnerability
  partialOn : Option Vulnerability

/-- Reads a level. -/
def decodeLevel : Decoder Vulnerability := variant Vulnerability.variants

/-- Reads the parameters. -/
def Limits.decode : Decoder Limits :=
  Record.decode
    (Record.make Limits.mk
      |>.defaulted "fail_on" decodeLevel .high
      |>.defaulted "partial_on" (optional decodeLevel) none)
    "DependencyAuditParams" true

/-- Checks that the partial level is milder. -/
def Limits.check (p : Limits) : Except ParamDefect Unit :=
  match p.partialOn with
  | some q =>
    if p.failOn.rank ≤ q.rank then .error (.notMilder q p.failOn) else .ok ()
  | none => .ok ()

/-- The number of vulnerabilities that make the criterion unmet. -/
def blocking (r : AuditReport) (p : Limits) : UInt64 := r.countFrom p.failOn

/-- The number of vulnerabilities that keep the criterion from being met. -/
def degrading (r : AuditReport) (p : Limits) : UInt64 := (p.partialOn.map r.countFrom).getD 0

/-- The status of the dependencies. -/
def status (r : AuditReport) (p : Limits) : Status :=
  if 0 < blocking r p then .unmet else if 0 < degrading r p then .partly else .met

/-- The draft on the counts. -/
def draft (r : AuditReport) (p : Limits) : Draft where
  confidence := .high
  summary :=
    if r.total = 0 then r.tool ++ " found no known vulnerabilities"
    else
      r.tool ++ " found " ++ toString r.critical ++ " critical, " ++ toString r.high ++ " high, "
        ++ toString r.medium ++ " medium, " ++ toString r.low ++ " low vulnerabilities"
  payload := .obj [
    ("blocking", .ofUInt64 (blocking r p)),
    ("critical", .ofUInt64 r.critical),
    ("fail_on", .str p.failOn.name),
    ("high", .ofUInt64 r.high),
    ("low", .ofUInt64 r.low),
    ("medium", .ofUInt64 r.medium),
    ("partial_on", .ofOption (fun v => .str v.name) p.partialOn),
    ("tool", .str r.tool)]

/-- Judges by the audit's report. -/
def decide (c : Criterion.Context) (s : Snapshot) (p : Limits) : Verdict :=
  match s.dependencyAudit with
  | none => .unavailable c "dependency audit"
  | some r => .ofStatus c (status r p) [draft r p]

/-- The rule. -/
def rule : TypedRule Limits where
  name := "dependency_audit"
  decode := Limits.decode
  check := Limits.check
  hasPartial := fun p => p.partialOn.isSome
  decide := decide

end Scorecard.Rule.Audit
