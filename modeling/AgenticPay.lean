import AgenticPay.Apportion
import AgenticPay.AuditLogger
import AgenticPay.AuditRetentionRuns
import AgenticPay.AuditTampering
import AgenticPay.Awaits
import AgenticPay.BatchRollback
import AgenticPay.BillingAttempts
import AgenticPay.BillingCoverage
import AgenticPay.BillingDiscounts
import AgenticPay.BillingDunning
import AgenticPay.BillingIdempotency
import AgenticPay.BillingRedemptions
import AgenticPay.BillingTariffs
import AgenticPay.BillingTotals
import AgenticPay.BillingUsage
import AgenticPay.CircuitBreakerRuns
import AgenticPay.CircuitBreakerTrials
import AgenticPay.ContractAdmin
import AgenticPay.ContractBatch
import AgenticPay.ContractEscrow
import AgenticPay.ContractLifecycle
import AgenticPay.ContractLock
import AgenticPay.EventFilters
import AgenticPay.EventSnapshots
import AgenticPay.EventStoreRuns
import AgenticPay.Evm
import AgenticPay.EvmBridge
import AgenticPay.EvmBridgeRefunds
import AgenticPay.EvmBridgeRequests
import AgenticPay.EvmBridgeSwaps
import AgenticPay.EvmEmergencyPause
import AgenticPay.EvmErc20Supply
import AgenticPay.EvmErc4337
import AgenticPay.EvmErc4337Bundles
import AgenticPay.EvmGenericBridge
import AgenticPay.EvmGsnForwarder
import AgenticPay.EvmPausable
import AgenticPay.EvmPauseRestores
import AgenticPay.EvmPaymentVault
import AgenticPay.EvmRelayCustody
import AgenticPay.EvmRequestExpiry
import AgenticPay.EvmRequestLifecycle
import AgenticPay.EvmRevenueBalances
import AgenticPay.EvmSplitterShares
import AgenticPay.EvmSponsorship
import AgenticPay.EvmTimelock
import AgenticPay.EvmTimelockRuns
import AgenticPay.EvmTreasury
import AgenticPay.EvmTreasuryVotes
import AgenticPay.EvmVaultAccounts
import AgenticPay.EvmVaultCompletion
import AgenticPay.EvmVaultOutsiders
import AgenticPay.ExternalCalls
import AgenticPay.FeeEngine
import AgenticPay.GsnBudgets
import AgenticPay.HtlcContract
import AgenticPay.HtlcSwaps
import AgenticPay.Idempotency
import AgenticPay.InstallmentRuns
import AgenticPay.InstallmentSchedules
import AgenticPay.JobQueueSinks
import AgenticPay.MarketplaceSettlements
import AgenticPay.MatchingOutcomes
import AgenticPay.Money
import AgenticPay.MpcApprovals
import AgenticPay.MpcCoordinator
import AgenticPay.MpcFaults
import AgenticPay.MpcMembers
import AgenticPay.MpcRevocation
import AgenticPay.MpcSessions
import AgenticPay.MpcShares
import AgenticPay.MpcSignatures
import AgenticPay.MpcSteps
import AgenticPay.MpcTypes
import AgenticPay.MultisigDecisions
import AgenticPay.MultisigQuorums
import AgenticPay.MultisigStatus
import AgenticPay.MultisigThresholds
import AgenticPay.MultisigVotes
import AgenticPay.Outbox
import AgenticPay.PauseSecurity
import AgenticPay.PauseUnpause
import AgenticPay.PaymentRequestLifecycle
import AgenticPay.PayoutLedger
import AgenticPay.PayoutPasses
import AgenticPay.PayoutReviews
import AgenticPay.PermissionRuns
import AgenticPay.Records
import AgenticPay.RecurringWindows
import AgenticPay.RefundBounds
import AgenticPay.RefundStatuses
import AgenticPay.Registry
import AgenticPay.ReorgRanges
import AgenticPay.RequestExpiration
import AgenticPay.RevenuePool
import AgenticPay.RevenueShares
import AgenticPay.ShamirShares
import AgenticPay.SlidingWindowRuns
import AgenticPay.SplitPayments
import AgenticPay.StorageMigration
import AgenticPay.SwapAggregator
import AgenticPay.SwapFallback
import AgenticPay.SwapRoutes
import AgenticPay.ThresholdPolicies
import AgenticPay.TokenFamilies
import AgenticPay.Transaction
import AgenticPay.TransferPrices
import AgenticPay.TransferRuns
import AgenticPay.TreasuryContract
import AgenticPay.TreasuryProposals
import AgenticPay.TreasuryVotes
import AgenticPay.WebhookRuns
import AgenticPay.Withdrawals
