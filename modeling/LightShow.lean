import LightShow.Main
import LightShow.Player
import LightShow.Proofs.Artifact.Comment
import LightShow.Proofs.Artifact.RoundTrip
import LightShow.Proofs.Color
import LightShow.Proofs.Command.Actions
import LightShow.Proofs.Command.Export
import LightShow.Proofs.Command.Files
import LightShow.Proofs.Compile.Addresses
import LightShow.Proofs.Compile.Batches
import LightShow.Proofs.Compile.Changes
import LightShow.Proofs.Compile.Frames
import LightShow.Proofs.Compile.Influence
import LightShow.Proofs.Compile.Lengthening
import LightShow.Proofs.Compositing
import LightShow.Proofs.Decimal.Rounding
import LightShow.Proofs.Decimal.Shortest
import LightShow.Proofs.Double.Order
import LightShow.Proofs.Double.Rank
import LightShow.Proofs.Json.Decoding
import LightShow.Proofs.Json.Grammar
import LightShow.Proofs.Json.Lexing
import LightShow.Proofs.Json.Numeral
import LightShow.Proofs.Json.Reading
import LightShow.Proofs.Json.Records
import LightShow.Proofs.Json.Scanning
import LightShow.Proofs.Lanes.Depth
import LightShow.Proofs.Lanes.Placement
import LightShow.Proofs.Mixing
import LightShow.Proofs.Playback.Advance
import LightShow.Proofs.Playback.Edits
import LightShow.Proofs.Playback.History
import LightShow.Proofs.Playback.Looping
import LightShow.Proofs.Playback.Minimality
import LightShow.Proofs.Playback.Parity
import LightShow.Proofs.Project.Edits
import LightShow.Proofs.Project.Json
import LightShow.Proofs.Project.RoundTrip
import LightShow.Proofs.Text
import LightShow.Proofs.Layout.Check
import LightShow.Proofs.Layout.Counting
import LightShow.Proofs.Layout.Faults
import LightShow.Proofs.Layout.Json
import LightShow.Proofs.Layout.Search
import LightShow.Proofs.Effect.Reveal
import LightShow.Proofs.Effect.Chase
import LightShow.Proofs.Effect.Complement
import LightShow.Proofs.Double.Nearest
import LightShow.Proofs.Double.Rounding
import LightShow.Proofs.Double.Arithmetic
import LightShow.Proofs.Double.Sum
import LightShow.Proofs.Effect.Ends
import LightShow.Proofs.Artifact.Records
import LightShow.Proofs.Artifact.Recovery
import LightShow.Proofs.Artifact.Lines
import LightShow.Proofs.Artifact.Source
import LightShow.Proofs.Double.Monotone
import LightShow.Proofs.Double.Half
import LightShow.Proofs.Effect.Monotone
import LightShow.Proofs.Lanes.Order
import LightShow.Proofs.Color.Grammar
import LightShow.Proofs.Json.Readers
import LightShow.Proofs.Project.Fields
import LightShow.Proofs.Project.Colors
import LightShow.Proofs.Project.Integers
import LightShow.Proofs.Command.Failure
import LightShow.Proofs.Color.Channel
