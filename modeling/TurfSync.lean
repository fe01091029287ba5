import TurfSync.Guarantees.Slots
import TurfSync.Guarantees.LifeCycle
import TurfSync.Guarantees.Cleanup
import TurfSync.Guarantees.Payments
import TurfSync.Guarantees.Webhooks
import TurfSync.Guarantees.Deliveries
import TurfSync.Guarantees.Resale
import TurfSync.Guarantees.Coupons
import TurfSync.Guarantees.SlotLock
import TurfSync.Guarantees.SlotTable
import TurfSync.Guarantees.Intents
import TurfSync.Guarantees.Administrators
import TurfSync.Guarantees.Lockout
import TurfSync.Guarantees.CouponUses
import TurfSync.Guarantees.Revocation
import TurfSync.Guarantees.Availability
import TurfSync.Guarantees.ResetTokens
import TurfSync.Guarantees.AuditTrail
import TurfSync.Guarantees.Ratings
import TurfSync.Guarantees.Phones
import TurfSync.Guarantees.DeadEnds
import TurfSync.Guarantees.Amounts
import TurfSync.Guarantees.Privacy
import TurfSync.Guarantees.Notifications
import TurfSync.Protocol.PageKeys
import TurfSync.Guarantees.Pages
import TurfSync.Guarantees.Quotes
import TurfSync.Guarantees.OpeningHours
import TurfSync.Guarantees.Completion
import TurfSync.Guarantees.RefreshLookup
import TurfSync.Guarantees.LockoutHistory
import TurfSync.Guarantees.Upcoming
import TurfSync.Services.Images
import TurfSync.Guarantees.Images
import TurfSync.Txn.Faults
import TurfSync.Guarantees.Refunds
import TurfSync.Guarantees.Traces
import TurfSync.Guarantees.MissingHours
import TurfSync.Guarantees.Dates
import TurfSync.Guarantees.Analytics
import TurfSync.Guarantees.Pagination
import TurfSync.Guarantees.Envelope
import TurfSync.Guarantees.Assets
import TurfSync.Guarantees.CouponRequests
import TurfSync.Guarantees.CacheKeys
import TurfSync.Guarantees.Splits
import TurfSync.Guarantees.Progress
import TurfSync.Guarantees.SlotHolders
import TurfSync.Guarantees.Reconciliation
import TurfSync.Guarantees.CacheSweep
import TurfSync.Guarantees.CacheTable
import TurfSync.Services.CachedReads
import TurfSync.Guarantees.StaleReads
import TurfSync.Guarantees.Jobs
import TurfSync.Guarantees.SlotSupply
import TurfSync.Guarantees.Privilege
import TurfSync.Guarantees.Sessions
