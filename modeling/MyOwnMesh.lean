import MyOwnMesh.Lib.Replay
import MyOwnMesh.Lib.LastWrite
import MyOwnMesh.Lib.Json
import MyOwnMesh.Authority.Owners
import MyOwnMesh.Authority.Published
import MyOwnMesh.Engine.Coherence
import MyOwnMesh.Engine.Adoption
import MyOwnMesh.Engine.Mirror
import MyOwnMesh.Engine.Spelling
import MyOwnMesh.Engine.Agreement
import MyOwnMesh.Engine.Broadcast
import MyOwnMesh.Engine.Inbound
import MyOwnMesh.Engine.Retention
import MyOwnMesh.NetworkState.MemberSet
import MyOwnMesh.Engine.Migration
import MyOwnMesh.Engine.Reconcile
import MyOwnMesh.Lib.Delimited
import MyOwnMesh.NetworkState.Payload
import MyOwnMesh.Engine.Evictions
import MyOwnMesh.Engine.Bootstrap
import MyOwnMesh.Engine.Handshake
import MyOwnMesh.Engine.Reliable
import MyOwnMesh.Engine.Tags
import MyOwnMesh.Engine.Frames
import MyOwnMesh.Engine.Panics
import MyOwnMesh.Engine.Calls
import MyOwnMesh.Engine.Quiet
import MyOwnMesh.Engine.Gossip
import MyOwnMesh.Engine.Strangers
import MyOwnMesh.Engine.Binding
import MyOwnMesh.Engine.Candidates
import MyOwnMesh.Engine.Offers
import MyOwnMesh.Engine.Teardown
import MyOwnMesh.Services.Relay
import MyOwnMesh.Services.Hosting
import MyOwnMesh.TurnStream
import MyOwnMesh.Engine.Amplification
import MyOwnMesh.Engine.HubRoutes
import MyOwnMesh.Engine.RingRoutes
import MyOwnMesh.Engine.FloodReach
import MyOwnMesh.SignalingServer.Takeover
import MyOwnMesh.Nostr.Subscription
import MyOwnMesh.Nostr.Redial
import MyOwnMesh.Video.Bounds
import MyOwnMesh.Video.Losses
import MyOwnMesh.Video.Reordering
import MyOwnMesh.Video.Fanout
import MyOwnMesh.Ipc.MediaQueue
import MyOwnMesh.Ipc.MediaPipes
import MyOwnMesh.Ipc.VideoPump
import MyOwnMesh.Ipc.ChannelPumps
import MyOwnMesh.Ipc.InboundCalls
import MyOwnMesh.Ipc.MethodClaims
import MyOwnMesh.Transport.Lanes
import MyOwnMesh.Custody
import MyOwnMesh.Engine.Watch
import MyOwnMesh.Engine.Shelving
import MyOwnMesh.Engine.SocketPressure
import MyOwnMesh.Daemon.Index
import MyOwnMesh.Daemon.Aliases
import MyOwnMesh.Updater.Swaps
import MyOwnMesh.Lib.TwoNames
import MyOwnMesh.Daemon.Restart
import MyOwnMesh.Transport.ReplayWindow
import MyOwnMesh.Engine.SkewArithmetic
import MyOwnMesh.Mdns.Browse
import MyOwnMesh.Engine.Reconnect
import MyOwnMesh.Transport.TurnBridges
import MyOwnMesh.SignalingServer.Replay
import MyOwnMesh.Cli.Caddyfile
import MyOwnMesh.Lib.Circle
import MyOwnMesh.Topology.Ring
import MyOwnMesh.Lib.Best
import MyOwnMesh.Topology.Hubs
import MyOwnMesh.Engine.Resplit
import MyOwnMesh.Engine.Canonical
import MyOwnMesh.Engine.FailedCalls
import MyOwnMesh.Engine.MembershipChanges
import MyOwnMesh.Lib.Grouping
import MyOwnMesh.Engine.InboundGate
import MyOwnMesh.Engine.SignalingFanout
import MyOwnMesh.Engine.Authentication
import MyOwnMesh.Engine.ConnTrace
import MyOwnMesh.SignalingServer.Subscriptions
import MyOwnMesh.Engine.Liveness
import MyOwnMesh.Engine.Suspicion
import MyOwnMesh.Engine.Reclaiming
import MyOwnMesh.Transport.NackHistory
import MyOwnMesh.Transport.Repairs
import MyOwnMesh.Lib.RingStore
import MyOwnMesh.Transport.PacketBuffer
