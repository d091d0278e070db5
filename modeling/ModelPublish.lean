import ModelPublish.Cache.Damaged
import ModelPublish.Cache.Sharing
import ModelPublish.Scan.Exact
import ModelPublish.Scan.Linkage
import ModelPublish.Scan.Returns
import ModelPublish.Scan.RoundTrip
import ModelPublish.Scan.Safety
import ModelPublish.Scan.Truncation
import ModelPublish.Scan.WellFormed
import ModelPublish.Obj.Direct
import ModelPublish.Obj.Filling
import ModelPublish.Obj.Indices
import ModelPublish.Obj.Placement
import ModelPublish.Obj.Range
import ModelPublish.Server.Concurrent
import ModelPublish.Server.Downloads
import ModelPublish.Server.Info
import ModelPublish.Server.Magic
import ModelPublish.Server.Quoting
import ModelPublish.Server.Replies
import ModelPublish.Server.Subscriptions
import ModelPublish.Server.Uploads
import ModelPublish.Stream.Bounds
import ModelPublish.Stream.Interchange
import ModelPublish.Obj.Box
import ModelPublish.Obj.Canonical
import ModelPublish.Obj.Chunks
import ModelPublish.Obj.Standalone
import ModelPublish.D3d.Pick
import ModelPublish.D3d.Producers
import ModelPublish.Editor.Inspector
import ModelPublish.Viewer.Cached
import ModelPublish.Camera.Extents
import ModelPublish.Camera.Setters
import ModelPublish.Client.Arrival
import ModelPublish.Server.Buffers
import ModelPublish.Viewer.Parts
import ModelPublish.Viewer.RenderDialog
import ModelPublish.Client.Delivery
import ModelPublish.Lz4.Compress
