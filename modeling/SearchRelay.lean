import SearchRelay.Controller.Rehearsal
import SearchRelay.Http.Router
import SearchRelay.Lifetime
import SearchRelay.Main
import SearchRelay.Message.Decoding
import SearchRelay.Proofs.Broadcast.Delivery
import SearchRelay.Proofs.Channel.Convergence
import SearchRelay.Proofs.Channel.Crowd
import SearchRelay.Proofs.Channel.Reply
import SearchRelay.Proofs.Controller.Course
import SearchRelay.Proofs.Controller.Exclusion
import SearchRelay.Proofs.Controller.Scans
import SearchRelay.Proofs.Lifetime.Conservation
import SearchRelay.Proofs.Lifetime.Law
import SearchRelay.Proofs.Lifetime.Panics
import SearchRelay.Proofs.Message.Fields
import SearchRelay.Proofs.Queue.Fifo
import SearchRelay.Proofs.StopLatch
import SearchRelay.Session
import SearchRelay.Proofs.Files.Path
import SearchRelay.Proofs.Files.Tree
import SearchRelay.Proofs.Files.Change
import SearchRelay.Proofs.FileIndex.Scan
import SearchRelay.Proofs.Controller.Cadence
import SearchRelay.Proofs.Http.Routing
import SearchRelay.Proofs.Http.Traffic
import SearchRelay.Proofs.Config.Layout
import SearchRelay.Proofs.Config.RoundTrip
import SearchRelay.Proofs.Config.Keys
import SearchRelay.Proofs.Config.Overrides
import SearchRelay.Proofs.Config.Precedence
import SearchRelay.Proofs.CommandLine
import SearchRelay.Proofs.Page.Places
import SearchRelay.Proofs.Http.Url
import SearchRelay.Proofs.Controller.Construction
import SearchRelay.Proofs.Network.Binding
