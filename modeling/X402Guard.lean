import X402Guard.InterleavedCalls
import X402Guard.KeyedTable
import X402Guard.SlidingWindow
import X402Guard.ServerTypes
import X402Guard.PaymentVerification
import X402Guard.GuardrailRules
import X402Guard.SessionKeyRules
import X402Guard.DashboardActions
import X402Guard.Database
import X402Guard.DatabaseChanges
import X402Guard.ProxyEnvironment
import X402Guard.Repositories
import X402Guard.ForwardRequest
import X402Guard.ManagementHandlers
import X402Guard.ProxySystem
import X402Guard.ForwardTrace
import X402Guard.ReplyFacts
import X402Guard.Forwarding
import X402Guard.CallReplay
import X402Guard.SoloExecution
import X402Guard.SessionKeyBudget
import X402Guard.DailyCap
import X402Guard.ReplayWindow
import X402Guard.KeyOwnership
import X402Guard.Whitelist
import X402Guard.EmergencyStop
import X402Guard.RevokedKeys
import X402Guard.VaultState
import X402Guard.VaultProgram
import X402Guard.VaultChanges
import X402Guard.RollingCap
import X402Guard.TokenCustody
import X402Guard.AgentExpiry
import X402Guard.GenuineUsdc
import X402Guard.VaultClosing
import X402Guard.LedgerBacking
import X402Guard.ForwardEnding
import X402Guard.HandlerErrors
import X402Guard.AuditTrail
import X402Guard.PaymentReports
import X402Guard.UnsentErrors
import X402Guard.AuditWriter
import X402Guard.NonceScope
import X402Guard.ReplayErrors
import X402Guard.ReplayCauses
import X402Guard.PairedExecution
import X402Guard.RetryOutcome
import X402Guard.RetryAfterLimit
import X402Guard.RunHistory
import X402Guard.VaultAgents
import X402Guard.TumblingWindow
import X402Guard.SpendWindows
import X402Guard.Borsh
import X402Guard.VaultLayout
import X402Guard.SolanaRpc
import X402Guard.SolanaPreflight
import X402Guard.SolanaRoutes
import X402Guard.SolanaNode
import X402Guard.ChainReads
import X402Guard.PolicyAgreement
import X402Guard.LimiterCalls
import X402Guard.LimiterWindows
import X402Guard.TargetHosts
import X402Guard.ExactVerdicts
import X402Guard.SignedTransfers
import X402Guard.LedgerRange
import X402Guard.FreshWindow
import X402Guard.AddressRanges
import X402Guard.ResourceMatch
import X402Guard.PositionalNotation
import X402Guard.Base58
import X402Guard.StoredRules
import X402Guard.AuditPages
import X402Guard.AuditLogTable
import X402Guard.Base58Loops
import X402Guard.PaddedNonce
import X402Guard.ApiKeyGate
import X402Guard.RuleForms
import X402Guard.InFlightCap
import X402Guard.OwnerRecovery
import X402Guard.RollingBound
import X402Guard.VaultBooks
import X402Guard.CallHistory
import X402Guard.PolicyInForce
import X402Guard.TraceLogic
import X402Guard.TextPatterns
import X402Guard.Doubles
import X402Guard.Base64
import X402Guard.ProgramAddress
import X402Guard.AgentSettings
import X402Guard.ManagedAgents
import X402Guard.OwnershipGate
import X402Guard.ViolationErrors
import X402Guard.ServedCalls
import X402Guard.SdkClient
import X402Guard.SdkDeployment
import X402Guard.SdkPayments
