import Aerobag.Client.Proofs.AuthorityProofs
import Aerobag.Client.Proofs.PendingProofs
import Aerobag.EventStream.Proofs.NotificationProofs
import Aerobag.Gc.Proofs.FetchCacheProofs
import Aerobag.LiveFeed.Proofs.CacheCatchUpProofs
import Aerobag.LiveFeed.Proofs.ServedProofs
import Aerobag.NavKv.Proofs.DeltaProofs
import Aerobag.NavKv.Proofs.PrefetchProofs
import Aerobag.NavKv.Proofs.TerminationProofs
import Aerobag.NodeCache.Proofs.NodeProofs
import Aerobag.Notam.Proofs.DisplayProofs
import Aerobag.Notam.Proofs.ScheduleProofs
import Aerobag.Packages.Proofs.SyncProofs
import Aerobag.Planning.Proofs.GuidanceProofs
import Aerobag.Planning.Proofs.RebuildProofs
import Aerobag.Proofs.KeyProofs
import Aerobag.Receiver.Proofs.CaptureProofs
import Aerobag.Receiver.Proofs.ProtocolProofs
import Aerobag.Receiver.Proofs.ReplayProofs
import Aerobag.Receiver.Proofs.WeatherProofs
import Aerobag.Server.Proofs.AuthProofs
import Aerobag.Server.Proofs.BucketProofs
import Aerobag.Server.Proofs.ListingProofs
import Aerobag.Server.Proofs.RecoveryProofs
