import DiamondBot.Library.AtomicRun
import DiamondBot.Library.Lockstep
import DiamondBot.Library.KeyedTotal
import DiamondBot.Library.Escrow
import DiamondBot.Near.Runtime
import DiamondBot.Token.FungibleToken
import DiamondBot.Token.SupplyTracker
import DiamondBot.Token.Bridge
import DiamondBot.Token.DiamondToken
import DiamondBot.Token.SupplyEffects
import DiamondBot.Token.TrackedSupply
import DiamondBot.Token.GlobalCap
import DiamondBot.Library.GrowingLog
import DiamondBot.Library.Quorum
import DiamondBot.MPC.MPCController
import DiamondBot.MPC.MPCEffects
import DiamondBot.MPC.SigningQuorum
import DiamondBot.MPC.SigningThreshold
import DiamondBot.MPC.TransactionLog
import DiamondBot.MPC.SupportedChains
import DiamondBot.Farming.Farming
import DiamondBot.Farming.FarmingSystem
import DiamondBot.Farming.StakeBooks
import DiamondBot.Farming.StakeAccounting
import DiamondBot.Mining.DiamondMining
import DiamondBot.Mining.MiningSystem
import DiamondBot.Mining.MiningEffects
import DiamondBot.Mining.RewardConservation
import DiamondBot.Mining.Emission
import DiamondBot.Mining.RateChanges
import DiamondBot.Farming.Rewards
import DiamondBot.Farming.FailedClaim
import DiamondBot.Farming.Solvency
import DiamondBot.Library.Tally
import DiamondBot.Farming.StakeHistory
import DiamondBot.Farming.LockPeriod
import DiamondBot.Token.Balances
import DiamondBot.Farming.StakingTransfer
import DiamondBot.Token.Observation
import DiamondBot.Token.BridgeFailure
import DiamondBot.Token.BridgeFees
import DiamondBot.Library.OrderedIndex
import DiamondBot.Token.ModuleIndex
import DiamondBot.Token.CallerPermissions
import DiamondBot.Token.OwnershipSync
import DiamondBot.Library.Dispenser
import DiamondBot.ChainAdapters.NonceManager
import DiamondBot.ChainAdapters.NonceUniqueness
import DiamondBot.ChainAdapters.SendRetry
import DiamondBot.ChainAdapters.SendOnce
import DiamondBot.ChainAdapters.NonceGaps
import DiamondBot.ChainAdapters.WalletIntegration
import DiamondBot.ChainAdapters.WalletSends
import DiamondBot.ChainAdapters.CircuitBreaker
import DiamondBot.ChainAdapters.RetryPolicy
import DiamondBot.ChainAdapters.BreakerRecovery
import DiamondBot.ChainAdapters.ErrorWindow
import DiamondBot.Common.BasicCache
import DiamondBot.Common.CircuitBreaker
import DiamondBot.Common.RateLimiter
import DiamondBot.Common.Auth
import DiamondBot.Common.CacheRefinement
import DiamondBot.Common.AsyncCache
import DiamondBot.Common.AsyncUpdates
import DiamondBot.Library.ExpiringMap
import DiamondBot.Common.ByteCache
import DiamondBot.Network.RedisQueue
import DiamondBot.Common.Bincode
import DiamondBot.Library.AtomicCalls
import DiamondBot.Network.Redis
import DiamondBot.Network.RedisCache
import DiamondBot.Network.RedisCounter
import DiamondBot.Network.MessageQueue
import DiamondBot.Network.MostUrgent
import DiamondBot.Network.MessageText
import DiamondBot.Network.CallStages
import DiamondBot.Network.MessageCommands
import DiamondBot.Network.Redelivery
import DiamondBot.Network.MessageCustody
import DiamondBot.Network.MissedReply
import DiamondBot.Library.FixedWindow
import DiamondBot.SnipeBot.RateLimit
import DiamondBot.Common.User
import DiamondBot.Common.Subscription
import DiamondBot.Common.UserManager
import DiamondBot.Common.Passwords
import DiamondBot.Wallet.SecureStorage
import DiamondBot.Blockchain.ContractManager
import DiamondBot.ChainAdapters.TokenWatch
import DiamondBot.Library.Retry
import DiamondBot.SnipeBot.ExecuteSnipe
import DiamondBot.Library.Shares
import DiamondBot.Token.BridgeEstimate
import DiamondBot.Token.ReturnTransfers
import DiamondBot.ChainAdapters.RetryOperation
import DiamondBot.SnipeBot.AutoTrade
import DiamondBot.SnipeBot.Entitlement
import DiamondBot.Library.Conveyor
import DiamondBot.SnipeBot.StatusUpdates
import DiamondBot.Network.WebSocketClient
import DiamondBot.Network.WebSocketServer
import DiamondBot.SnipeBot.CurrentWallet
import DiamondBot.Library.RotatingSearch
import DiamondBot.Library.Binary64
import DiamondBot.ChainAdapters.EndpointInfo
import DiamondBot.ChainAdapters.ConnectionPool
import DiamondBot.SnipeBot.GasOptimizer
import DiamondBot.SnipeBot.GasFees
import DiamondBot.Library.TimedLog
import DiamondBot.SnipeBot.GasHistory
import DiamondBot.Common.Transaction
import DiamondBot.Library.Utf8
import DiamondBot.Library.DecimalText
import DiamondBot.SnipeBot.AmountText
import DiamondBot.SnipeBot.ShortText
import DiamondBot.Library.Substring
import DiamondBot.Network.TransactionRisk
import DiamondBot.Network.ExtensionVersion
import DiamondBot.Network.MempoolMonitor
import DiamondBot.Common.FullCache
import DiamondBot.Library.LruCache
import DiamondBot.Common.LruCache
import DiamondBot.Network.DefaultTtl
import DiamondBot.SnipeBot.TokenStatus
import DiamondBot.ChainAdapters.ErrorClasses
import DiamondBot.Common.ErrorHandling
import DiamondBot.Common.ErrorLog
import DiamondBot.Library.KeyedRecords
import DiamondBot.Common.SubscriptionManager
import DiamondBot.Common.PaidDays
import DiamondBot.SnipeBot.ProviderFallback
import DiamondBot.Common.WaitForCondition
import DiamondBot.Common.RetryPolicy
import DiamondBot.ChainAdapters.RetryCallback
import DiamondBot.ChainAdapters.SequentialSend
import DiamondBot.ChainAdapters.TokenFilter
import DiamondBot.SnipeBot.PercentAmounts
import DiamondBot.SnipeBot.RiskAnalyzer
import DiamondBot.Library.Averages
import DiamondBot.SnipeBot.AverageU256
import DiamondBot.SnipeBot.RetryMetrics
import DiamondBot.Library.Paging
import DiamondBot.SnipeBot.WalletTransactions
import DiamondBot.Common.RetryWithTimeout
import DiamondBot.Network.Reconnection
import DiamondBot.Network.QuicClient
import DiamondBot.Library.Ranking
import DiamondBot.Network.RecentTransactions
import DiamondBot.SnipeBot.AutoTuning
import DiamondBot.Library.Flows
import DiamondBot.Token.BalanceFlow
import DiamondBot.Library.Projection
import DiamondBot.Mining.MintReceipts
import DiamondBot.Library.Leases
import DiamondBot.Network.RedisLock
import DiamondBot.Common.LruRetention
import DiamondBot.Library.KeyStream
import DiamondBot.Common.Security
import DiamondBot.Library.HexText
import DiamondBot.SnipeBot.AddressText
import DiamondBot.Network.WasmInput
import DiamondBot.Library.Durable
import DiamondBot.Common.UserDurability
import DiamondBot.Common.UserAccess
import DiamondBot.Library.Completions
import DiamondBot.SnipeBot.TokenRounds
import DiamondBot.ChainAdapters.EndpointOutage
import DiamondBot.Farming.RewardBound
import DiamondBot.ChainAdapters.ChainRegistry
