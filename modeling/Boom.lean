import Boom.Tasks.Cancel
import Boom.Api.AclUpdates
import Boom.Api.FilterActivation
import Boom.Api.LastAdmin
import Boom.Api.SocialSignIn
import Boom.Api.TokenLife
import Boom.Catalogs.Complete
import Boom.Alert.Visible
import Boom.Tasks.CatalogCommit
import Boom.Filter.Handover
import Boom.Kafka.Replay
import Boom.Tasks.SingleFlight
import Boom.Utils.TrackAliases
import Boom.Utils.TrackLock
import Boom.Api.PipelineQuery
import Boom.Tasks.CutoutResume
import Boom.Tasks.ReprocessDrain
import Boom.Tasks.ImportResume
import Boom.Tasks.ExportManifest
import Boom.Milvus.NewestWins
import Boom.Tasks.HostOrder
import Boom.Tasks.RedactTree
import Boom.Utils.ShardQueries
import Boom.Utils.TrackPages
import Boom.Filter.OutputAlerts
import Boom.Tasks.RepairPhotometry
import Boom.Utils.VolumeCoverage
import Boom.Milvus.BackupQueue
import Boom.Utils.GridClusters
import Boom.Utils.HostRedshifts
import Boom.Utils.LinkTracklets
import Boom.Utils.TrackletsFound
import Boom.Enrichment.Fusion
import Boom.Utils.FastChains
import Boom.Utils.OutsideText
import Boom.Utils.Css
import Boom.Alert.Sanitized
import Boom.Api.Credentials
import Boom.Catalogs.IngestWhole
import Boom.Filter.NamedFields
import Boom.Scheduler.Supervise
import Boom.Tasks.MirroredRows
import Boom.Tasks.SsoBaselines
import Boom.Utils.Cutouts
import Boom.Utils.Designations
import Boom.Utils.Episodes
import Boom.Utils.Host.Associate
import Boom.Utils.KdTree
import Boom.Utils.MultiOrder
import Boom.Utils.PhaseCurves
import Boom.Utils.TrackIds
import Boom.Utils.Triplets
