import BazarApi.Shop.Ledger
import BazarApi.Shop.SalesOnce
import BazarApi.Shop.DeudasOnce
import BazarApi.Shop.Balances
import BazarApi.Shop.Conflicts
import BazarApi.Shop.DebtStatus
import BazarApi.Shop.SameItems
import BazarApi.Shop.SaleFingerprint
import BazarApi.Shop.SaleWhole
import BazarApi.Shop.ReportsAgree
import BazarApi.Shop.Audits
import BazarApi.Shop.Costs
import BazarApi.Shop.ReportsRange
import BazarApi.Shop.Deadlock
import BazarApi.Json.Canonical
import BazarApi.Team.Activation
import BazarApi.Registration.Cleanup
import BazarApi.Registration.Emails
import BazarApi.Invitations.Deadlock
import BazarApi.MemberEmail.Deadlock
import BazarApi.Listing.Snapshot
import BazarApi.Tenant.Confinement
import BazarApi.Finance.Simulation
import BazarApi.Finance.AgreementsSafe
import BazarApi.Finance.Folios
import BazarApi.Finance.Replacements
import BazarApi.Finance.Committed
import BazarApi.Finance.PaymentRuns
import BazarApi.Finance.DocumentOfRecord
import BazarApi.WorkShifts.Counts
import BazarApi.Finance.Periods
import BazarApi.Finance.Deadlock
import BazarApi.Finance.Confirmation
import BazarApi.Finance.Columns
import BazarApi.Finance.ListPages
import BazarApi.Finance.PaymentTotals
import BazarApi.Finance.BusinessTime
import BazarApi.Finance.RulesReading
import BazarApi.Finance.RulesOverview
import BazarApi.Shop.DeudaList
import BazarApi.Finance.Summaries
import BazarApi.Finance.AllocationExact
import BazarApi.Registration.RateLimiter
import BazarApi.Team.OneAccount
import BazarApi.Finance.Objections
import BazarApi.Finance.CreateQueuesOrder
import BazarApi.Corrections.Kept
import BazarApi.Finance.RulesOutcomes
