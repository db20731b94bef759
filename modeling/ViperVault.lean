import ViperVault.Foundation.Runs
import ViperVault.Foundation.Mutation
import ViperVault.Foundation.Serde
import ViperVault.Foundation.Results
import ViperVault.Foundation.Reader
import ViperVault.Foundation.Json
import ViperVault.Foundation.JsonCodec
import ViperVault.Memory.Secret
import ViperVault.Entries.Validate
import ViperVault.Entries.Types
import ViperVault.Entries.Update
import ViperVault.Entries.Dto
import ViperVault.Core.Session
import ViperVault.Core.LockState
import ViperVault.Entries.Json
import ViperVault.Import.Interop
import ViperVault.Core.Entries
import ViperVault.Core.Store
import ViperVault.Core.Concurrent
import ViperVault.Core.Generations
import ViperVault.Core.AutoLock
import ViperVault.Core.Disclosure
import ViperVault.Vault.Types
import ViperVault.Vault.Json
import ViperVault.Crypto.Primitives
import ViperVault.Vault.Codec
import ViperVault.Vault.Duress
import ViperVault.Vault.Create
import ViperVault.Core.Unlock
import ViperVault.Vault.Symbolic
import ViperVault.Vault.Lifecycle
import ViperVault.Vault.Decoy
import ViperVault.Vault.Migrate
import ViperVault.Backup.Codec
import ViperVault.Core.AuthGate
import ViperVault.Import.Signed
import ViperVault.Vault.Grammar
import ViperVault.Backup.Machine
import ViperVault.Backup.Coverage
import ViperVault.Core.StaleTimer
import ViperVault.Import.InSession
import ViperVault.Core.Backoff
import ViperVault.Foundation.Journal
import ViperVault.Import.Attempts
import ViperVault.Import.AttemptRuns
import ViperVault.Import.GateHistory
import ViperVault.Import.Oracle
import ViperVault.Core.Reauth
import ViperVault.Foundation.RwLock
import ViperVault.Vault.Storage
import ViperVault.Vault.StorageSteps
import ViperVault.Vault.StorageRuns
import ViperVault.Foundation.OrderedMap
import ViperVault.Core.EntryMap
import ViperVault.Core.Failures
import ViperVault.Clipboard.Guard
import ViperVault.Foundation.Base32
import ViperVault.Foundation.Hotp
import ViperVault.Foundation.Strings
import ViperVault.Totp.Decode
import ViperVault.Totp.Engine
import ViperVault.Totp.Verify
import ViperVault.Foundation.Percent
import ViperVault.Otpauth.Export
import ViperVault.Otpauth.Totp
import ViperVault.Totp.Stored
import ViperVault.Otpauth.RoundTrip
import ViperVault.Otpauth.Identity
import ViperVault.Import.OtpauthList
import ViperVault.Entries.UpdateRuns
import ViperVault.Totp.Mirror
import ViperVault.Entries.FieldGuards
import ViperVault.Entries.NoteMirror
import ViperVault.Totp.Shown
import ViperVault.Import.ReportRuns
import ViperVault.Foundation.FirstOccurrence
import ViperVault.Import.ListReadings
import ViperVault.Import.ListOrder
import ViperVault.Foundation.FileTree
import ViperVault.Foundation.LossyText
import ViperVault.Vault.PathStorage
import ViperVault.Core.LimiterRuns
import ViperVault.Foundation.WriteBack
import ViperVault.Vault.Durability
import ViperVault.Vault.PowerRuns
import ViperVault.Vault.Stored
import ViperVault.Core.Biometrics
import ViperVault.Core.StrongSessions
import ViperVault.Clipboard.Copies
import ViperVault.Core.TimerRuns
import ViperVault.Ffi.Buffers
import ViperVault.Ffi.Clipboard
import ViperVault.Core.AntiDebug
import ViperVault.Foundation.Weights
import ViperVault.Import.Guesses
import ViperVault.Import.ListRoundTrip
import ViperVault.Import.Restore
import ViperVault.Core.Replay
import ViperVault.Vault.StorageProgress
import ViperVault.Clipboard.Codes
