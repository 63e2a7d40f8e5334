import CrownFi.Commerce.Deliveries
import CrownFi.Commerce.Amounts
import CrownFi.Commerce.Cursor
import CrownFi.Commerce.StockLevels
import CrownFi.Commerce.Redeliveries
import CrownFi.Commerce.Retries
import CrownFi.Commerce.StaleIntents
import CrownFi.Commerce.BuyerKeys
import CrownFi.Commerce.Admission
import CrownFi.Commerce.Serials
import CrownFi.Commerce.Landing
import CrownFi.PredictionContract.Lockout
import CrownFi.Stellar.Integrity
import CrownFi.Stellar.KeyCopies
import CrownFi.Stellar.Base64Texts
import CrownFi.Markets.Settled
import CrownFi.Markets.FeeRule
import CrownFi.Markets.LogCheck
import CrownFi.Markets.GovernanceChain
import CrownFi.Markets.OutcomeTotals
import CrownFi.Markets.UserCap
import CrownFi.Markets.OwnTransaction
import CrownFi.Markets.Batching
import CrownFi.Markets.Stranded
import CrownFi.Markets.Allocation
import CrownFi.Voting.Completeness
import CrownFi.Voting.Anchored
import CrownFi.Voting.Resubmission
import CrownFi.Voting.PublicRounds
import CrownFi.Access.Memberships
import CrownFi.Access.Routes
import CrownFi.Access.Wallets
import CrownFi.Payouts.Batches
import CrownFi.Payouts.Failures
import CrownFi.Payouts.Split
import CrownFi.Payouts.Decimals
import CrownFi.Hosting.Eligible
import CrownFi.Hosting.Overwrites
import CrownFi.Media.Content
import CrownFi.Web.Deliveries
import CrownFi.Web.OnePayment
import CrownFi.Web.PageantHome.Normal
import CrownFi.Web.Rounds.Inclusion
import CrownFi.Web.Rounds.Receipts
import CrownFi.Commerce.Channels
import CrownFi.Commerce.Completion
import CrownFi.Commerce.Tickets
import CrownFi.Fulfillment.Jobs
import CrownFi.Transfers.Acceptance
import CrownFi.Contracts.Sales
import CrownFi.Contracts.AuditAnchor
import CrownFi.Contracts.Ticket
import CrownFi.Contracts.Collectible
import CrownFi.Lib.Counters
import CrownFi.App.Votes
import CrownFi.App.Tallies
