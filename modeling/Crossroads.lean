import Crossroads.Bytes
import Crossroads.Bytes.Checksum
import Crossroads.Bytes.Varint
import Crossroads.Text.Blank
import Crossroads.Text.Column
import Crossroads.Spelling
import Crossroads.Grid
import Crossroads.Sphere
import Crossroads.Vehicle
import Crossroads.Vehicle.Atlas
import Crossroads.Text.Decimal
import Crossroads.Text.Json
import Crossroads.Feature.Record
import Crossroads.Border.Poly
import Crossroads.Bytes.Decoder
import Crossroads.Bytes.Sealed
import Crossroads.Graph.Sweep
import Crossroads.Graph.Frontier.Pairs
import Crossroads.Graph.Survey
import Crossroads.Crossing.Transition
import Crossroads.Crossing.Leap
import Crossroads.Region.Coding
import Crossroads.Region.Container
import Crossroads.Region.CrossingSection
import Crossroads.Region.Settings
import Crossroads.Overlay.Bundle
import Crossroads.Overlay.Roadbook
import Crossroads.Overlay.Fakes
import Crossroads.Region.Build
import Crossroads.Command.Run
import Crossroads.Command.Help
import Crossroads.Main
import Crossroads.Proofs.Graph.JointIndex
import Crossroads.Proofs.Graph.Reach
import Crossroads.Proofs.Graph.Sweep
import Crossroads.Proofs.Crossing.Leap
import Crossroads.Proofs.Bytes.Decoder
import Crossroads.Proofs.Bytes.Number
import Crossroads.Proofs.Bytes.Varint
import Crossroads.Proofs.Bytes.Metered
import Crossroads.Proofs.Bytes.Remainder
import Crossroads.Proofs.Bytes.Sealed
import Crossroads.Proofs.Grid
import Crossroads.Proofs.Resolution
import Crossroads.Proofs.Region.Coding
import Crossroads.Proofs.Crossing.Transition
import Crossroads.Proofs.Region.CrossingSection
import Crossroads.Proofs.Bytes.Text
import Crossroads.Proofs.Disk
import Crossroads.Proofs.Vehicle
import Crossroads.Proofs.Graph.Survey
import Crossroads.Proofs.Graph.Places
import Crossroads.Proofs.Crossing.Weights
import Crossroads.Proofs.Crossing.Detection
import Crossroads.Proofs.Graph.Road
import Crossroads.Proofs.Graph.Mirror
import Crossroads.Proofs.Graph.Latest
import Crossroads.Proofs.Graph.Layout
import Crossroads.Proofs.Region.Container
import Crossroads.Proofs.Region.Usage
import Crossroads.Proofs.Region.Acceptance
import Crossroads.Proofs.Region.Header
import Crossroads.Proofs.Region.BasePoint
import Crossroads.Proofs.Region.RoutingSection
import Crossroads.Proofs.Region.OnDisk
import Crossroads.Proofs.Region.Build
import Crossroads.Proofs.Region.Leaps
import Crossroads.Proofs.Region.AllOrNothing
import Crossroads.Proofs.Overlay.Fakes
import Crossroads.Proofs.Overlay.Snap
import Crossroads.Proofs.Overlay.Session
import Crossroads.Proofs.Overlay.Chain
import Crossroads.Proofs.Region.Reordering
import Crossroads.Proofs.Bytes.Checksum
import Crossroads.Proofs.Region.Bursts
import Crossroads.Proofs.Region.Metering
import Crossroads.Proofs.Graph.Pace
import Crossroads.Proofs.Graph.Strays
import Crossroads.Proofs.Graph.Return
import Crossroads.Proofs.Region.Bodies
import Crossroads.Proofs.Crossing.Places
import Crossroads.Proofs.Overlay.Near
import Crossroads.Proofs.Overlay.Closest
import Crossroads.Proofs.Overflow
import Crossroads.Proofs.Overlay.Again
import Crossroads.Proofs.Graph.Rounds
import Crossroads.Proofs.Border.Grammar
import Crossroads.Proofs.Spelling
