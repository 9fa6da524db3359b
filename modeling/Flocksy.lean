import Flocksy.Foundation.ByteStream
import Flocksy.Foundation.Runs
import Flocksy.Foundation.Stays
import Flocksy.Foundation.KeyedTable
import Flocksy.Foundation.Exec
import Flocksy.Foundation.Links
import Flocksy.Foundation.Arrivals
import Flocksy.Foundation.MerkleTree
import Flocksy.Foundation.SortedLists
import Flocksy.Foundation.Chains
import Flocksy.Foundation.Clocks
import Flocksy.Foundation.PathNames
import Flocksy.Foundation.OrderedTable
import Flocksy.Foundation.Repetitions
import Flocksy.Foundation.SignedInts
import Flocksy.Foundation.Codes
import Flocksy.Foundation.Outputs
import Flocksy.FlockFsm
import Flocksy.FileRecord
import Flocksy.HashTree
import Flocksy.TreeLevels
import Flocksy.TreeSizes
import Flocksy.LeafSets
import Flocksy.HashStrings
import Flocksy.Directories
import Flocksy.DirectoryEntries
import Flocksy.FollowedLinks
import Flocksy.Config
import Flocksy.ConfigBlocks
import Flocksy.BoxTable
import Flocksy.Endpoints
import Flocksy.Keystore
import Flocksy.Boxes
import Flocksy.BoxComparison
import Flocksy.Boxoffice
import Flocksy.Rounds
import Flocksy.Heartbeats
import Flocksy.Stages
import Flocksy.BoxofficeStep
import Flocksy.Messages
import Flocksy.StartUp
import Flocksy.ReplyRounds
import Flocksy.LocalQueues
import Flocksy.MetadataSessions
import Flocksy.LocalNotifications
import Flocksy.RepeatedReports
import Flocksy.ReceivedMetadata
import Flocksy.StageEffects
import Flocksy.Relays
import Flocksy.Transmission
import Flocksy.WireLengths
import Flocksy.FileData
import Flocksy.HeartbeatTransport
import Flocksy.InotifyMessages
import Flocksy.WatchedPaths
import Flocksy.SocketPolls
import Flocksy.CurrentFile
import Flocksy.Promotions
import Flocksy.DispatcherOrders
import Flocksy.StartTimes
import Flocksy.RecordStreams
import Flocksy.HandOffs
import Flocksy.PeerMessages
import Flocksy.StopTimes
import Flocksy.Network
import Flocksy.FollowerRounds
import Flocksy.Coordinators
import Flocksy.StopAgreement
import Flocksy.DispatcherRuns
import Flocksy.Transfers
import Flocksy.StopPolls
import Flocksy.DispatcherCalls
import Flocksy.Tandem
import Flocksy.TandemRuns
import Flocksy.DeadRows
import Flocksy.Shutdown
