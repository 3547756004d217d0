import Flexi.Library.Reach
import Flexi.Library.Transactions
import Flexi.Library.Outcome
import Flexi.Library.Table
import Flexi.Library.Async
import Flexi.Library.Cancellation
import Flexi.Library.RelyGuarantee
import Flexi.Library.History
import Flexi.Library.Checks
import Flexi.Library.Lookup
import Flexi.Library.Protocol
import Flexi.Common.Json
import Flexi.Common.HttpError
import Flexi.Tenancy.Identifiers
import Flexi.DynamicTables.Types
import Flexi.DynamicTables.Schema
import Flexi.DynamicTables.Worker
import Flexi.DynamicTables.Service
import Flexi.DynamicTables.Rows
import Flexi.Library.Doubles
import Flexi.DynamicTables.Storage
import Flexi.DynamicTables.System
import Flexi.DynamicTables.Statements
import Flexi.DynamicTables.Runs
import Flexi.Tenants.Seed
import Flexi.DynamicTables.Registry
import Flexi.DynamicTables.EditPlan
import Flexi.DynamicTables.SystemColumns
import Flexi.DynamicTables.JobOrder
import Flexi.DynamicTables.TableOwnership
import Flexi.DynamicTables.Agreement
import Flexi.DynamicTables.FailureRecords
import Flexi.DynamicTables.FieldConversion
import Flexi.DynamicTables.FieldLimit
import Flexi.DynamicTables.RowPayload
import Flexi.DynamicTables.ValidationCache
import Flexi.DynamicTables.RowListing
import Flexi.DynamicTables.RowDeletion
import Flexi.DynamicTables.RelationNames
import Flexi.Library.JobQueue
import Flexi.DynamicTables.Interleaving
import Flexi.DynamicTables.SchemaCoherence
import Flexi.DynamicTables.TableGuardrail
import Flexi.DynamicTables.RelationColumns
import Flexi.Tenants.RetryRecovery
import Flexi.Tenants.FinalAttempts
import Flexi.Tenants.Fencing
import Flexi.Tenants.UniqueViolations
import Flexi.Tenants.Compensation
import Flexi.Accounts.Revocation
import Flexi.Accounts.ReuseDetection
import Flexi.Accounts.MemberStatus
import Flexi.Accounts.DeletedMembers
import Flexi.Accounts.GuessBudget
import Flexi.Accounts.OtpCooldown
import Flexi.Accounts.ForcedReset
import Flexi.Accounts.TokenRotation
import Flexi.Library.ReadCommitted
import Flexi.Tenants.SetupLinkRows
import Flexi.Tenants.SetupLinkRuns
import Flexi.Accounts.EmailAddresses
import Flexi.Accounts.Seats
import Flexi.Accounts.InviteRuns
import Flexi.Accounts.LockUnlock
import Flexi.Accounts.ResentInvites
import Flexi.Accounts.AddressResolution
import Flexi.Accounts.MemberLogin
import Flexi.Accounts.LastAdministrator
import Flexi.Accounts.SessionClients
import Flexi.Accounts.Impersonation
import Flexi.Ownership.OwnerRuns
import Flexi.Ownership.Conservation
import Flexi.DynamicTables.SafeNames
import Flexi.Tenants.StepOutcomes
import Flexi.Listings.ListingPages
import Flexi.Client.DdlJobSubmission
import Flexi.Client.FieldEditor
import Flexi.Client.RowFormErrors
import Flexi.Client.RowForm
import Flexi.Library.Slots
import Flexi.Client.Session
import Flexi.Client.SessionRuns
import Flexi.Client.LoggedOut
import Flexi.Client.TokenMoves
import Flexi.Accounts.PresentedTokens
import Flexi.Client.System
import Flexi.Client.TabAnswers
import Flexi.Client.HonestClient
import Flexi.Tenants.Onboarding
import Flexi.Tenants.OnboardingRuns
import Flexi.Tenants.OnboardingReplays
import Flexi.Client.OnboardingForm
import Flexi.Client.OnboardingSystem
import Flexi.Accounts.SettingsRuns
import Flexi.Accounts.Whitelists
import Flexi.Client.SettingsPage
