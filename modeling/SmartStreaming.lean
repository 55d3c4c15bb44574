import SmartStreaming.Base.Io.IOBuffer
import SmartStreaming.Rtmp.Chunk.Interleave
import SmartStreaming.Rtmp.Amf.RoundTrip
import SmartStreaming.Rtmp.Amf.Consumed
import SmartStreaming.Rtmp.Amf.Containers
import SmartStreaming.Rtmp.Amf.Copy
import SmartStreaming.Rtmp.Amf.Counts
import SmartStreaming.Rtmp.Packet.Sizes
import SmartStreaming.Rtmp.Packet.Safety
import SmartStreaming.Http.Parser
import SmartStreaming.Http.Framing
import SmartStreaming.Http.Client
import SmartStreaming.Http.Fields
import SmartStreaming.Http.GetBuilt
import SmartStreaming.Http.BodyBuilt
import SmartStreaming.Http.Query
import SmartStreaming.Http.Bodies
import SmartStreaming.Http.FirstPacket
import SmartStreaming.Cache.Readers
import SmartStreaming.Cache.FailedRun
import SmartStreaming.Cache.Dispatch
import SmartStreaming.Cache.Idle
import SmartStreaming.Cache.StaticFiles
import SmartStreaming.Cache.Segments
import SmartStreaming.Rtmp.Packet.HandBack
import SmartStreaming.Rtmp.Packet.Encode
import SmartStreaming.Rtmp.Packet.Room
import SmartStreaming.Rtmp.Packet.RoundTrip
import SmartStreaming.Rtmp.Chunk.CallerBuffer
import SmartStreaming.Rtmp.Chunk.Fragments
import SmartStreaming.Format.Flush
import SmartStreaming.Format.Ingest
import SmartStreaming.Http.Pieces
import SmartStreaming.Http.Accepted
import SmartStreaming.Cache.Pool
import SmartStreaming.Cache.Cycle
import SmartStreaming.Rtmp.SendPacket
import SmartStreaming.Rtmp.Acknowledge
import SmartStreaming.Rtmp.Chunk.Timestamps
import SmartStreaming.Rtmp.Chunk.Extended
import SmartStreaming.Rtmp.Chunk.Retry
import SmartStreaming.Rtmp.Chunk.Continuation
import SmartStreaming.Rtmp.Handshake
import SmartStreaming.Transport.CachedReads
import SmartStreaming.Transport.Srt
import SmartStreaming.Transport.SrtDispatch
import SmartStreaming.Base.Coroutine
import SmartStreaming.Cache.FileBounds
import SmartStreaming.Cache.SegmentTimes
import SmartStreaming.Cache.Viewers
import SmartStreaming.Cache.Serving
import SmartStreaming.Cache.ChannelMgr
import SmartStreaming.Http.Mux
import SmartStreaming.Http.Server
import SmartStreaming.Cache.Live
import SmartStreaming.Cache.Relay
import SmartStreaming.Http.Hops
import SmartStreaming.Machinery.Holdings
import SmartStreaming.Cache.Sockets
import SmartStreaming.Cache.FailedPlays
import SmartStreaming.Cache.FileRequests
import SmartStreaming.Cache.SegmentPlay
import SmartStreaming.Rtmp.Expect
