import BlobStore.Limit.KeyCount
import BlobStore.Limit.BlockingKeyCount
import BlobStore.Allocator.BidMgr
import BlobStore.VolumeMgr.IdleVolumes
import BlobStore.VolumeMgr.Alloc
import BlobStore.Controller.Cluster
import BlobStore.Access.Basic
import BlobStore.Access.Location
import BlobStore.Access.SortedVuid
import BlobStore.Access.ReadOneBlob
import BlobStore.Access.ReadOneBlobSound
import BlobStore.Access.ReadOneBlobLive
import BlobStore.Access.ReadOneBlobData
import BlobStore.Access.Get
import BlobStore.Access.GetData
import BlobStore.Access.FastPath
import BlobStore.Access.GetSound
import BlobStore.Access.GetAlloc
import BlobStore.Access.ShardRead
import BlobStore.ClusterMgr.Config
import BlobStore.Worker.TaskRunner
import BlobStore.Worker.TaskRunnerSafe
import BlobStore.Worker.TaskRunnerStats
import BlobStore.Common.TaskSwitch
import BlobStore.Tinker.ShardRepair
