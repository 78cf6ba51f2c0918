import Banking.Lib.TwoPhaseLaws
import Banking.Plan
import Banking.Conservation
import Banking.Hold
import Banking.Planned
import Banking.HoldChain
import Banking.HoldRuns
import Banking.TxRef
import Banking.Arrivals
import Banking.Credits
import Banking.Relay
import Banking.Withdrawal
import Banking.Invoice
import Banking.Orders
import Banking.Book
import Banking.BookFills
import Banking.BookRuns
import Banking.PlaceOnce
import Banking.Bank
import Banking.Answers
import Banking.RelayRules
import Banking.Settles
import Banking.SettleRuns
import Banking.Lib.Framing
import Banking.Payments
import Banking.Subjects
import Banking.ChartKeys
import Banking.Consilium
import Banking.ConsiliumRuns
import Banking.Scopes
import Banking.Approvals
import Banking.ApprovalBinding
import Banking.Mandates
import Banking.Idempotency
import Banking.KeyBinding
import Banking.ConsiliumStore
import Banking.VoteGate
import Banking.Lib.Pool
import Banking.Lib.Locks
import Banking.Execution
import Banking.ExecutionRuns
import Banking.Roster
import Banking.RosterRuns
import Banking.Money
import Banking.FeeTerms
import Banking.FeeCharges
import Banking.FeePlane
import Banking.FeeRuns
import Banking.Repricing
import Banking.Billing
import Banking.Marks
import Banking.InvoiceRuns
import Banking.Grants
import Banking.Lib.Rolling
import Banking.Ceilings
import Banking.ScopeTransfers
import Banking.Operations
import Banking.OperationRuns
import Banking.Executor
import Banking.ExecutorRuns
import Banking.Outflow
import Banking.OutflowWindows
import Banking.OutflowRuns
import Banking.Lib.Journal
import Banking.SignerPolicy
import Banking.ChainTx
import Banking.Signer
import Banking.SignerRules
import Banking.SignedTransfers
import Banking.SpendWindows
import Banking.SpendWindowRuns
import Banking.ScopeEvents
import Banking.ScopeEventRuns
import Banking.PaymentConsent
import Banking.ConsentGate
import Banking.FeeRoutes
import Banking.FeeRouteRuns
import Banking.Lib.Sequenced
import Banking.Bridge
import Banking.BridgeRuns
import Banking.Lib.Expiring
import Banking.TronCustody
import Banking.TronCustodyRuns
import Banking.Lib.Paging
import Banking.DepositScan
import Banking.DepositScanRuns
import Banking.Lib.Rlp
import Banking.EvmRlp
import Banking.Lib.Radix
import Banking.Base58
import Banking.FeeLaws
import Banking.OwnerRoster
import Banking.WindowTool
import Banking.WindowClose
import Banking.WindowClosings
import Banking.WindowCloseRuns
import Banking.WindowRemap
import Banking.WindowRemaps
import Banking.WindowRemapRuns
import Banking.PriceTime
import Banking.OrderLaws
import Banking.DecimalText
import Banking.PrunedHistory
import Banking.EvmDeposits
import Banking.EvmDepositScans
import Banking.EvmDepositRuns
import Banking.WatcherBackoff
import Banking.GasStation
import Banking.NavHistory
import Banking.MandateStore
import Banking.MandateSteps
import Banking.MandateConsent
import Banking.MandateOutflow
import Banking.MandateFills
import Banking.Lib.CursorLog
import Banking.MoneyEvents
import Banking.MoneyEventNames
import Banking.MoneyEventLog
import Banking.MoneyEventRuns
import Banking.Lib.KeyedRows
import Banking.FeePolicyChanges
import Banking.FeePolicyChangeSteps
import Banking.FeePolicyChangeRuns
import Banking.FeePolicyBinding
