import ZeroTrustProxy.Concurrent.Program
import ZeroTrustProxy.Concurrent.Run
import ZeroTrustProxy.Concurrent.Outcome
import ZeroTrustProxy.Concurrent.Sequential
import ZeroTrustProxy.Concurrent.ExpiringStore
import ZeroTrustProxy.Model.Chrono
import ZeroTrustProxy.Model.Error
import ZeroTrustProxy.Model.Policy
import ZeroTrustProxy.Model.External
import ZeroTrustProxy.Model.Device
import ZeroTrustProxy.Model.Risk
import ZeroTrustProxy.Model.Records
import ZeroTrustProxy.Model.World
import ZeroTrustProxy.Model.Commands
import ZeroTrustProxy.Model.Audit
import ZeroTrustProxy.Model.Auth
import ZeroTrustProxy.Model.Proxy
import ZeroTrustProxy.Contract.Evidence
import ZeroTrustProxy.Contract.Exits
import ZeroTrustProxy.Contract.LoginExits
import ZeroTrustProxy.Contract.Panics
import ZeroTrustProxy.Contract.MfaExits
import ZeroTrustProxy.Contract.Kinds
import ZeroTrustProxy.Contract.Handlers
import ZeroTrustProxy.Contract.Effects
import ZeroTrustProxy.Runs.Provenance
import ZeroTrustProxy.Runs.Gate
import ZeroTrustProxy.Runs.SecondFactor
import ZeroTrustProxy.Runs.Accounts
import ZeroTrustProxy.Concurrent.Script
import ZeroTrustProxy.Runs.Scenario
import ZeroTrustProxy.Policy.DenyOverrides
import ZeroTrustProxy.Policy.Degraded
import ZeroTrustProxy.Policy.RiskScore
import ZeroTrustProxy.Runs.Devices
import ZeroTrustProxy.Runs.Accesses
import ZeroTrustProxy.Runs.Window
import ZeroTrustProxy.Runs.Upgrade
import ZeroTrustProxy.Runs.Updates
import ZeroTrustProxy.Runs.Recorded
import ZeroTrustProxy.Runs.Fingerprints
import ZeroTrustProxy.Runs.Upstream
import ZeroTrustProxy.Runs.Prediction
import ZeroTrustProxy.Runs.RevokeAll
import ZeroTrustProxy.Runs.DeadToken
import ZeroTrustProxy.Runs.Agreement
import ZeroTrustProxy.Runs.RiskRange
import ZeroTrustProxy.Runs.Revocation
import ZeroTrustProxy.Runs.Trust
import ZeroTrustProxy.Runs.RateLimit
import ZeroTrustProxy.Runs.RateWindow
import ZeroTrustProxy.Model.Passkey
import ZeroTrustProxy.Passkeys.Backends
import ZeroTrustProxy.Passkeys.Software
import ZeroTrustProxy.Passkeys.Interchange
import ZeroTrustProxy.Passkeys.Clients
import ZeroTrustProxy.Passkeys.SignCounter
import ZeroTrustProxy.Passkeys.Refresh
import ZeroTrustProxy.Runs.Guesses
import ZeroTrustProxy.Runs.Audited
import ZeroTrustProxy.Runs.Unhindered
import ZeroTrustProxy.Runs.Rewards
import ZeroTrustProxy.Concurrent.Serial
import ZeroTrustProxy.Runs.Attempts
import ZeroTrustProxy.Passkeys.SignIn
import ZeroTrustProxy.Runs.Bootstrap
import ZeroTrustProxy.Contract.RegisterExits
import ZeroTrustProxy.Runs.Registration
import ZeroTrustProxy.Concurrent.Progress
import ZeroTrustProxy.Runs.Completion
import ZeroTrustProxy.Concurrent.Alphabet
import ZeroTrustProxy.Contract.Alphabet
import ZeroTrustProxy.Concurrent.Projection
import ZeroTrustProxy.Runs.Isolation
import ZeroTrustProxy.Runs.AuditTrail
import ZeroTrustProxy.Runs.Consistency
import ZeroTrustProxy.Runs.Forwarding
import ZeroTrustProxy.Runs.GuessBudget
import ZeroTrustProxy.Concurrent.Cost
import ZeroTrustProxy.Concurrent.Once
import ZeroTrustProxy.Runs.Work
import ZeroTrustProxy.Runs.Enrolment
import ZeroTrustProxy.Runs.Logins
