import Headend.Bytes
import Headend.Outcome
import Headend.Rtp.Packet
import Headend.Rtp.Sequence
import Headend.Rtp.Slots
import Headend.Rtp.Clock
import Headend.Rtp.Assembler
import Headend.Codec.Opus
import Headend.Codec.Vp8
import Headend.Codec.H264
import Headend.Ebml.Vint
import Headend.Ebml.Element
import Headend.WebM.Track
import Headend.WebM.BlockWriter
import Headend.Media.Error
import Headend.Media.Writer
import Headend.Media.AnnexB
import Headend.Media.Muxer
import Headend.Pipe.Basic
import Headend.Pipe.Desk
import Headend.Token
import Headend.Shutdown
import Headend.Media.Sink
import Headend.Media.Fanout
import Headend.Codec
import Headend.Hls.Router
import Headend.Plant.Fan
import Headend.Plant.Relay
import Headend.Plant.Consumer
import Headend.Plant.Basic
import Headend.Plant.Track
import Headend.Ingest.Stream
import Headend.Ingest.Registry
import Headend.Ingest.Handoff
import Headend.Throttle
import Headend.Web.Fault
import Headend.Orchestrator
import Headend.Text.Utf8
import Headend.Text.Split
import Headend.Text.Number
import Headend.Text.Space
import Headend.Text.Hidden
import Headend.Text.Quote
import Headend.Net.Address
import Headend.Text.Mark
import Headend.Net.Punycode
import Headend.Net.Domain
import Headend.Net.Url
import Headend.Settings.Flags
import Headend.Settings.Ice
import Headend.Settings.Options
import Headend.Sdp.Description
import Headend.Sdp.Transport
import Headend.Text.Case
import Headend.Sdp.Direction
import Headend.Sdp.Coding
import Headend.Sdp.Agreement
import Headend.Sdp.Transceiver
import Headend.Sdp.Answer
import Headend.Files
import Headend.Hls.Fifo
import Headend.Hls.Command
import Headend.Hls.Segment
import Headend.Text.Percent
import Headend.Text.Json
import Headend.Web.Offer
import Headend.Web.Request
import Headend.Web.Response
import Headend.Web.Resource
import Headend.Web.Server
import Headend.Text.Alphanumeric
import Headend.Text.Regex
import Headend.Log
import Headend.Log.Directive
import Headend.Hls.Transcode
import Headend.Net.Sockets
import Headend.Cli
import Headend.Main
import Headend.Proofs.Ebml.Vint
import Headend.Proofs.Ebml.Reader
import Headend.Proofs.Ebml.Tree
import Headend.Proofs.WebM.Reader
import Headend.Proofs.WebM.Header
import Headend.Proofs.WebM.RoundTrip
import Headend.Proofs.WebM.Clusters
import Headend.Proofs.Rtp.Span
import Headend.Proofs.Rtp.Stored
import Headend.Proofs.Rtp.Build
import Headend.Proofs.Rtp.Push
import Headend.Proofs.Rtp.Opus
import Headend.Proofs.Rtp.Trail
import Headend.Proofs.Rtp.Window
import Headend.Proofs.Rtp.Vp8
import Headend.Proofs.Rtp.Frames
import Headend.Proofs.Rtp.Kept
import Headend.Proofs.Rtp.Reordered
import Headend.Proofs.Media.Feed
import Headend.Proofs.Media.Muxer
import Headend.Proofs.Media.Opus
import Headend.Proofs.Media.Vp8
import Headend.Proofs.Codec.H264
import Headend.Proofs.Media.AnnexB
import Headend.Proofs.Fanout.Run
import Headend.Proofs.Fanout.Lossy
import Headend.Proofs.Fanout.Lossless
import Headend.Proofs.Plant.Fan
import Headend.Proofs.Plant.Delivery
import Headend.Proofs.Rtp.Narrow
import Headend.Proofs.Media.Ending
import Headend.Proofs.Media.Sink
import Headend.Proofs.Plant.Sinks
import Headend.Proofs.Plant.Line
import Headend.Proofs.Plant.Track
import Headend.Proofs.Rtp.Overrun
import Headend.Proofs.Media.Crash
import Headend.Proofs.Ingest.Drift
import Headend.Proofs.Ingest.Drive
import Headend.Proofs.Ingest.History
import Headend.Proofs.Ingest.Held
import Headend.Proofs.Ingest.Superseded
import Headend.Proofs.Media.Samples
import Headend.Proofs.Media.Opening
import Headend.Proofs.Media.Timeline
import Headend.Proofs.Rtp.Made
import Headend.Proofs.Rtp.Spent
import Headend.Proofs.Media.Repeats
import Headend.Proofs.Ingest.Routes
import Headend.Proofs.Ingest.ActiveRoute
import Headend.Proofs.Plant.Shut
import Headend.Proofs.Plant.Tether
import Headend.Proofs.Ingest.Over
import Headend.Proofs.Plant.Ends
import Headend.Proofs.Ingest.Alone
import Headend.Proofs.Ingest.Exclusive
import Headend.Proofs.Shutdown.Work
import Headend.Proofs.Shutdown.Orderly
import Headend.Proofs.Shutdown.Session
import Headend.Proofs.Orchestrator.Teardown
import Headend.Proofs.Orchestrator.History
import Headend.Proofs.Orchestrator.Stages
import Headend.Proofs.Orchestrator.Release
import Headend.Proofs.Pipe.History
import Headend.Proofs.Pipe.Delivery
import Headend.Proofs.Codec.Lead
import Headend.Proofs.Media.Gate
import Headend.Proofs.Rtp.InOrder
import Headend.Proofs.Media.Position
import Headend.Proofs.Media.Bounded
import Headend.Proofs.Ingest.Handover
import Headend.Proofs.Runs
import Headend.Proofs.Files
import Headend.Proofs.Throttle
import Headend.Proofs.Hls.CleanUp
import Headend.Proofs.Hls.Segment
