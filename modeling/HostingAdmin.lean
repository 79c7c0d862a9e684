import HostingAdmin.Api.Account
import HostingAdmin.Api.Apps
import HostingAdmin.Api.Assets
import HostingAdmin.Api.Endpoint
import HostingAdmin.Api.Secrets
import HostingAdmin.Asset.Basic
import HostingAdmin.Asset.Cache
import HostingAdmin.Asset.Diff
import HostingAdmin.Asset.Format
import HostingAdmin.Asset.Listing
import HostingAdmin.Asset.Manifest
import HostingAdmin.Base64
import HostingAdmin.CommandLine.Grammar
import HostingAdmin.CommandLine.Invocation
import HostingAdmin.CommandLine.Run
import HostingAdmin.CommandLine.Scope
import HostingAdmin.Credential.Login
import HostingAdmin.Credential.Token
import HostingAdmin.Decimal
import HostingAdmin.EnvFile
import HostingAdmin.Failure
import HostingAdmin.FileTree
import HostingAdmin.FileTree.Changes
import HostingAdmin.FileTree.Contents
import HostingAdmin.FileTree.Real
import HostingAdmin.Hosting.Batch
import HostingAdmin.Hosting.Export
import HostingAdmin.Hosting.Import
import HostingAdmin.Hosting.Retrieval
import HostingAdmin.Hosting.Target
import HostingAdmin.Http.Link
import HostingAdmin.Http.Message
import HostingAdmin.Http.Multipart
import HostingAdmin.Http.Script
import HostingAdmin.Http.Url
import HostingAdmin.Json.Basic
import HostingAdmin.Json.Reader
import HostingAdmin.Json.Writer
import HostingAdmin.Log
import HostingAdmin.Main
import HostingAdmin.Mask
import HostingAdmin.Md5
import HostingAdmin.MediaType
import HostingAdmin.Path
import HostingAdmin.Pool
import HostingAdmin.Profile
import HostingAdmin.Profile.Store
import HostingAdmin.Program
import HostingAdmin.Proofs.Actions
import HostingAdmin.Proofs.Routes
import HostingAdmin.Proofs.AppFolders
import HostingAdmin.Proofs.AssetPaths
import HostingAdmin.Proofs.AttributeOrder
import HostingAdmin.Proofs.BatchInvariant
import HostingAdmin.Proofs.BatchSchedule
import HostingAdmin.Proofs.CallFailures
import HostingAdmin.Proofs.CallTraffic
import HostingAdmin.Proofs.CommandFailures
import HostingAdmin.Proofs.CommandSteps
import HostingAdmin.Proofs.CredentialHistory
import HostingAdmin.Proofs.DiffScan
import HostingAdmin.Proofs.DownloadSteps
import HostingAdmin.Proofs.ExitCodes
import HostingAdmin.Proofs.ExportSettles
import HostingAdmin.Proofs.ExportedDifference
import HostingAdmin.Proofs.ExportedFiles
import HostingAdmin.Proofs.FileRewrites
import HostingAdmin.Proofs.FolderContents
import HostingAdmin.Proofs.HostedStore
import HostingAdmin.Proofs.ImportAccounts
import HostingAdmin.Proofs.ImportConsent
import HostingAdmin.Proofs.ImportRequests
import HostingAdmin.Proofs.ImportSteps
import HostingAdmin.Proofs.JsonNumbers
import HostingAdmin.Proofs.JsonRoundTrip
import HostingAdmin.Proofs.JsonStrings
import HostingAdmin.Proofs.ListUpdates
import HostingAdmin.Proofs.LocalListing
import HostingAdmin.Proofs.ManifestFile
import HostingAdmin.Proofs.MemberLists
import HostingAdmin.Proofs.Outcomes
import HostingAdmin.Proofs.PathResolution
import HostingAdmin.Proofs.PoolRuns
import HostingAdmin.Proofs.PoolSchedule
import HostingAdmin.Proofs.PoolTally
import HostingAdmin.Proofs.ProfileFile
import HostingAdmin.Proofs.RealPaths
import HostingAdmin.Proofs.RetrievalFiles
import HostingAdmin.Proofs.RetrievalRuns
import HostingAdmin.Proofs.RetrievalSteps
import HostingAdmin.Proofs.SessionFile
import HostingAdmin.Proofs.SessionHistory
import HostingAdmin.Proofs.SessionInvariant
import HostingAdmin.Proofs.SingleFlight
import HostingAdmin.Proofs.TreeGrowth
import HostingAdmin.Proofs.TreeWalks
import HostingAdmin.Proofs.Utf8RoundTrip
import HostingAdmin.Proofs.WorkerFailures
import HostingAdmin.Proofs.SparedFile
import HostingAdmin.Proofs.TendedCommands
import HostingAdmin.Session
import HostingAdmin.Session.Call
import HostingAdmin.Settings
import HostingAdmin.Text.Chars
import HostingAdmin.Text.Integer
import HostingAdmin.Text.Literal
import HostingAdmin.Text.Printable
import HostingAdmin.Text.Utf
import HostingAdmin.Validation
import HostingAdmin.World
import HostingAdmin.Proofs.BatchProgress
import HostingAdmin.Proofs.ExpiredTokens
import HostingAdmin.Proofs.FilePlaces
import HostingAdmin.Proofs.DeliveredFiles
import HostingAdmin.Proofs.WireTraffic
import HostingAdmin.Proofs.CompleteExports
import HostingAdmin.Proofs.BearerTokens
import HostingAdmin.Proofs.SessionCommands
import HostingAdmin.Proofs.SessionExports
import HostingAdmin.Proofs.Visits
import HostingAdmin.Proofs.SessionIsolation
import HostingAdmin.Proofs.MultipartFraming
import HostingAdmin.Proofs.JsonShapes
import HostingAdmin.Proofs.CheckedValues
import HostingAdmin.Proofs.UploadFormat
import HostingAdmin.Proofs.StoredFiles
import HostingAdmin.Proofs.CacheFile
import HostingAdmin.Proofs.FoundFiles
import HostingAdmin.Proofs.CacheEntries
import HostingAdmin.Proofs.CurrentHashes
import HostingAdmin.Proofs.CachedListings
import HostingAdmin.Proofs.MaskScan
import HostingAdmin.Proofs.MaskedSecrets
import HostingAdmin.Proofs.DiffClasses
import HostingAdmin.Proofs.KeptAttributes
import HostingAdmin.Proofs.CallExchange
import HostingAdmin.Proofs.ListingOrder
import HostingAdmin.Proofs.Escapes
import HostingAdmin.Proofs.TransferFailures
import HostingAdmin.Proofs.SettingsFailures
import HostingAdmin.Proofs.ExactListings
import HostingAdmin.Proofs.Base64RoundTrip
import HostingAdmin.Proofs.JsonTexts
import HostingAdmin.Proofs.TokenExpiry
import HostingAdmin.Proofs.ReplacedLogins
import HostingAdmin.Proofs.TargetPaths
import HostingAdmin.Proofs.ConfinedExports
import HostingAdmin.Proofs.IntroducerWords
import HostingAdmin.Proofs.MaskStability
import HostingAdmin.Proofs.EmptyListings
import HostingAdmin.Proofs.UrlEncoding
import HostingAdmin.Proofs.UrlPaths
import HostingAdmin.Proofs.SecretAddresses
import HostingAdmin.Proofs.CallAnswers
import HostingAdmin.Proofs.BaseUrls
import HostingAdmin.Proofs.SchemedRequests
import HostingAdmin.Proofs.ImportPlan
import HostingAdmin.Proofs.FormFields
import HostingAdmin.Proofs.AssetRequests
import HostingAdmin.Proofs.AcceptedChanges
import HostingAdmin.Proofs.SyncConvergence
import HostingAdmin.Proofs.ShownLines
