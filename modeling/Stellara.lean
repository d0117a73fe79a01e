import Stellara.Shared.CircuitBreaker
import Stellara.Shared.Fees
import Stellara.Trading.Breaker
import Stellara.Reserve.ProofOfReserves
import Stellara.Academy.SingleClaim
import Stellara.Academy.BatchClaims
import Stellara.Lib.Serving
import Stellara.Academy.VestingCurve
import Stellara.Shared.Satisfiable
import Stellara.Shared.AclGrowth
import Stellara.Insurance.Lifecycle
import Stellara.Insurance.AutoExpiry
import Stellara.Synthetic.OwnerOperations
import Stellara.Tcr.Tallies
import Stellara.Lib.Index
import Stellara.Lib.Journal
import Stellara.Amm.PositionIndex
import Stellara.Lib.Dispersion
import Stellara.Amm.Volatility
import Stellara.Amm.DynamicFee
import Stellara.Trading.Queue
import Stellara.Trading.Priority
import Stellara.Trading.FillOrKill
import Stellara.Insurance.Pool
import Stellara.Insurance.Accounting
import Stellara.Lib.Quorum
import Stellara.Shared.Governance
import Stellara.Shared.GovernanceRuns
import Stellara.Amm.Pool
import Stellara.Shared.Acl
import Stellara.Amm.Fees
import Stellara.Amm.Contract
import Stellara.Amm.SwapMath
import Stellara.Amm.Solvency
import Stellara.Amm.SolvencyRuns
import Stellara.Amm.Exits
import Stellara.Amm.SwapDirection
import Stellara.Amm.Steps
import Stellara.Amm.ActiveLiquidity
import Stellara.Amm.FeeAttribution
import Stellara.Amm.PoolPairs
import Stellara.Amm.Conversions
import Stellara.Amm.LiquidityRounding
import Stellara.Lib.ParentChain
import Stellara.Shared.AclDecision
import Stellara.Shared.BreakerRuns
import Stellara.Host.Evm
import Stellara.Treasury.Contract
import Stellara.Treasury.Effects
import Stellara.Treasury.Confirmations
import Stellara.Lib.SpendWindow
import Stellara.Treasury.Limits
import Stellara.Treasury.Ether
import Stellara.Treasury.Freeze
import Stellara.Treasury.Quorum
import Stellara.Token.Contract
import Stellara.Token.Supply
import Stellara.Token.Allowances
import Stellara.Token.Events
import Stellara.Synthetic.Contract
import Stellara.Synthetic.Debt
import Stellara.Synthetic.Liquidation
import Stellara.Bridge.Contract
import Stellara.Bridge.DepositIds
import Stellara.Bridge.Effects
import Stellara.Bridge.Outflow
import Stellara.Bridge.Withdrawals
import Stellara.Lib.FirstMatch
import Stellara.Router.Contract
import Stellara.Router.Protocol
import Stellara.Messaging.Contract
import Stellara.Messaging.Counters
import Stellara.Messaging.Delivery
import Stellara.Messaging.SenderIndependence
import Stellara.Lib.Refinement
import Stellara.Tcr.Contract
import Stellara.Reserve.Rebalancing
import Stellara.Reserve.Reports
import Stellara.Reserve.ReportRuns
import Stellara.Reserve.Redemption
import Stellara.Reserve.Requests
import Stellara.Tcr.Refinement
import Stellara.Mining.Contract
import Stellara.Mining.Isolation
import Stellara.Reserve.Settlements
import Stellara.Mining.Emissions
import Stellara.Mining.Principal
import Stellara.Mining.Payouts
import Stellara.Mining.Allocation
import Stellara.Staking.Contract
import Stellara.Staking.Rewards
import Stellara.Staking.SplitClaims
import Stellara.Staking.Solvency
import Stellara.Academy.Badges
import Stellara.Academy.AuditTrail
import Stellara.Academy.Redemptions
import Stellara.Trading.Upgradeable
import Stellara.Trading.Guards
import Stellara.Trading.Pauses
import Stellara.Trading.RateLimits
import Stellara.Trading.Admissible
import Stellara.Identity.Hub
import Stellara.Identity.Access
import Stellara.Host.Signed
import Stellara.Identity.Credentials
import Stellara.Identity.CredentialStatus
import Stellara.Identity.DidRegistry
import Stellara.Identity.DidDocuments
import Stellara.Router.Administration
import Stellara.Shared.Setup
import Stellara.Identity.Administration
import Stellara.Lib.Tasks
import Stellara.Lib.Trails
import Stellara.Auth.Nonces
import Stellara.Auth.RefreshTokens
import Stellara.Auth.Rotation
import Stellara.Auth.Sessions
import Stellara.Auth.Authenticity
import Stellara.Auth.Wallets
import Stellara.Auth.Bindings
import Stellara.Auth.RateLimit
import Stellara.Monitor.Deliveries
import Stellara.Monitor.Retries
import Stellara.Monitor.Streams
import Stellara.Monitor.Processing
import Stellara.Workflow.StateMachine
import Stellara.Workflow.Execution
import Stellara.Workflow.HandlerOrder
import Stellara.Workflow.Cancellation
import Stellara.Workflow.Resumption
import Stellara.Workflow.Compensation
import Stellara.Lib.Expiry
import Stellara.Voice.Sessions
import Stellara.Voice.Messages
import Stellara.Voice.SessionCap
import Stellara.Voice.Streaming
import Stellara.Voice.Interrupts
import Stellara.Voice.Quota
import Stellara.Voice.QuotaLimits
import Stellara.Amm.PartialSteps
import Stellara.Amm.RemovedFees
import Stellara.Amm.SwapFees
import Stellara.Amm.Hedge
import Stellara.Amm.RoundTrips
import Stellara.Reserve.Allocations
import Stellara.Reserve.DailyCap
import Stellara.Lib.Trim
import Stellara.Lib.Keys
import Stellara.Queue.DeadLetters
import Stellara.Lib.Json
import Stellara.Lib.Stringify
import Stellara.Workflow.IdempotencyKeys
import Stellara.Workflow.Starts
import Stellara.Workflow.StepInput
import Stellara.Voice.QuotaReset
import Stellara.Workflow.StepRetries
import Stellara.Shared.ReplayFloor
import Stellara.Trading.RecentTrades
import Stellara.Trading.PrivateAudits
import Stellara.Market.Cache
import Stellara.Market.Invalidation
import Stellara.Market.Snapshots
import Stellara.Lib.WriteLog
import Stellara.Lib.Yields
import Stellara.Ai.Circuit
import Stellara.Ai.Prompts
import Stellara.Auth.ApiTokens
import Stellara.Auth.TokenValidation
import Stellara.Lib.FixedWindow
import Stellara.Throttle.Requests
import Stellara.Throttle.Limits
