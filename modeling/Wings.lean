import Wings.Archives.Extraction
import Wings.Backups.Upload
import Wings.Collaboration.Broadcast
import Wings.Collaboration.History
import Wings.Collaboration.Membership
import Wings.Collaboration.Memory
import Wings.Console.Output
import Wings.Cron.SftpBatch
import Wings.FileHistory.Followed
import Wings.FileHistory.Pruning
import Wings.FileHistory.Readable
import Wings.FileOperations.Cancellation
import Wings.Filesystem.DiskCalls
import Wings.Filesystem.UsageExact
import Wings.Import.Downloads
import Wings.Import.Selection
import Wings.NativeCollaboration.Discarded
import Wings.NativeCollaboration.Registry
import Wings.Network.Downloads
import Wings.Network.FixedDownload
import Wings.Network.Internal
import Wings.Network.Limiter
import Wings.NetworkPolicy.Attributes
import Wings.NetworkPolicy.Refinement
import Wings.NetworkPolicy.Runtime
import Wings.Parser.TextFile
import Wings.Power.Restoring
import Wings.Restore.RoundTrip
import Wings.Search.Contents
import Wings.Transfer.Checksums
import Wings.Transfer.Incoming
import Wings.Transfer.Push
import Wings.Uploads.Batch
import Wings.Uploads.Sessions
