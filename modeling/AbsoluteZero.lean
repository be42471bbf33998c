import AbsoluteZero.Kernel.Completion
import AbsoluteZero.Kernel.Capacity
import AbsoluteZero.Kernel.Isolation
import AbsoluteZero.Kernel.Redelivery
import AbsoluteZero.Kernel.CrashRecovery
import AbsoluteZero.Kernel.Tampering
import AbsoluteZero.Kernel.RecoveryIndependence
import AbsoluteZero.Scheduler.Progressing
import AbsoluteZero.Scheduler.CrashCuts
import AbsoluteZero.Scheduler.Refusals
import AbsoluteZero.Governance.Totality
import AbsoluteZero.Governance.Approvals
import AbsoluteZero.Governance.ClosedWorld
import AbsoluteZero.Governance.Reboot
import AbsoluteZero.Communication.AppendOnly
import AbsoluteZero.Communication.Fifo
import AbsoluteZero.Execution.Restarts
import AbsoluteZero.Rsm.Checkpoints
import AbsoluteZero.Rsm.ArrivalOrder
import AbsoluteZero.Cm.Apportionment
import AbsoluteZero.Cm.Ceiling
import AbsoluteZero.Cm.Freshness
import AbsoluteZero.Cm.Shuffles
import AbsoluteZero.Planning.Acceptance
import AbsoluteZero.Reasoning.Attempts
import AbsoluteZero.Reasoning.Coordinates
import AbsoluteZero.Reasoning.DecisionGate
import AbsoluteZero.Plugins.Draining
import AbsoluteZero.Plugins.Quarantine
import AbsoluteZero.Plugins.Restoring
import AbsoluteZero.Cm.Resolver
import AbsoluteZero.Verification.Contributions
import AbsoluteZero.Verification.Punctuality
import AbsoluteZero.Verification.Replay
import AbsoluteZero.Lie.Growth
import AbsoluteZero.Lie.Alternatives
import AbsoluteZero.Lie.Notifications
import AbsoluteZero.Lie.Restarts
import AbsoluteZero.Lie.Curator
import AbsoluteZero.Rsm.Metadata
import AbsoluteZero.Ums.Architecture
