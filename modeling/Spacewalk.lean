import Spacewalk.Relay.Envelopes
import Spacewalk.Oracle
import Spacewalk.Ledger.Supply
import Spacewalk.Ledger.Collateral
import Spacewalk.Clients.Framing
import Spacewalk.Clients.Resubmission
import Spacewalk.Clients.WalletLock
import Spacewalk.Clients.IssuePayments
import Spacewalk.Rewards.Overflow
import Spacewalk.Ledger.ReplaceAmounts
import Spacewalk.Ledger.RewardSync
import Spacewalk.Clients.PaymentCount
import Spacewalk.Ledger.Thresholds
import Spacewalk.Ledger.LiquidationRedeem
import Spacewalk.Rewards.Collection
import Spacewalk.Ledger.Reimbursement
import Spacewalk.Ledger.Settlement
import Spacewalk.Clients.Collector
import Spacewalk.Ledger.SecureIds
import Spacewalk.Ledger.IssuedAmounts
import Spacewalk.Staking.Bookkeeping
import Spacewalk.Ledger.ExactAmounts
import Spacewalk.Clients.Certificates
import Spacewalk.Clients.RequestMemos
import Spacewalk.Clients.EnvelopeText
