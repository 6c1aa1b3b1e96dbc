import Flowline.Main
import Flowline.Graph.Format
import Flowline.Monitor.Format
import Flowline.Registration.Format
import Flowline.Spec.Format
import Flowline.Proofs.Definition.Document
import Flowline.Proofs.Graph.Ids
import Flowline.Proofs.Graph.NodeIds
import Flowline.Proofs.Graph.Path
import Flowline.Proofs.Graph.EdgeIds
import Flowline.Proofs.Status.LastWrite
import Flowline.Proofs.Graph.Contents
import Flowline.Definition.Writing
import Flowline.Proofs.Definition.Line
import Flowline.Proofs.Definition.Writing
import Flowline.Proofs.Definition.Canonical
import Flowline.Proofs.Definition.Structured
import Flowline.Proofs.Registration.RoundTrip
import Flowline.Proofs.Store.Shelf
import Flowline.Proofs.Command.ByName
import Flowline.Proofs.Command.Registering
import Flowline.Monitor.Call
import Flowline.Proofs.Status.Seeding
import Flowline.Proofs.Monitor.Entries
import Flowline.Proofs.Monitor.History
import Flowline.Monitor.Interleaving
import Flowline.Proofs.Monitor.Interleaving
import Flowline.Proofs.Monitor.Matching
import Flowline.Proofs.Monitor.Removal
import Flowline.Proofs.Monitor.Versions
import Flowline.Simulation
import Flowline.Proofs.Simulation.Progress
import Flowline.Proofs.Source.Answers
import Flowline.Feed.Schedule
import Flowline.Proofs.Feed.Turns
import Flowline.Proofs.Feed.Pace
import Flowline.Feed.Calls
import Flowline.Proofs.Source.Apart
import Flowline.Proofs.Feed.Apart
import Flowline.Proofs.Feed.Subscriptions
import Flowline.Proofs.Feed.Undisturbed
import Flowline.Proofs.Feed.Consumer
import Flowline.Proofs.Simulation.Alone
import Flowline.Proofs.Spec.HashedText
import Flowline.Proofs.Service.Tending
import Flowline.Proofs.Service.Lifetime
import Flowline.Proofs.Feed.OnTime
import Flowline.Proofs.Graph.Reading
import Flowline.Proofs.Status.Events
import Flowline.Proofs.Command.Sparing
import Flowline.Proofs.Graph.Overlay
import Flowline.Proofs.Graph.Growing
import Flowline.Proofs.Graph.Warnings
import Flowline.Proofs.Graph.Links
import Flowline.Proofs.SubStage
import Flowline.Proofs.Spec.Outline
import Flowline.Mapping.Writing
import Flowline.Proofs.Mapping.Lines
import Flowline.Proofs.Mapping.Written
import Flowline.Proofs.Command.Watching
import Flowline.Proofs.Store.Confined
import Flowline.Proofs.Render.Rows
import Flowline.Proofs.Definition.StageLine
import Flowline.Proofs.Graph.Search
import Flowline.Proofs.Source.Tables
