import Darkroom.Main
import Darkroom.Proofs.Image.Raster
import Darkroom.Proofs.Image.Library
import Darkroom.Proofs.Codec.Library
import Darkroom.Proofs.Region
import Darkroom.Proofs.Vision.Redaction
import Darkroom.Proofs.Vision.Pixelation
import Darkroom.Proofs.Vision.WordLoops
import Darkroom.Proofs.Fault
import Darkroom.Proofs.Graph.Edit
import Darkroom.Proofs.Graph.WellFormed
import Darkroom.Proofs.Graph.Reachable
import Darkroom.Proofs.Graph.Connect
import Darkroom.Proofs.Graph.Compute
import Darkroom.Proofs.Graph.Evaluation
import Darkroom.Proofs.Graph.Typing
import Darkroom.Proofs.Graph.Saved
import Darkroom.Proofs.Json.Token
import Darkroom.Proofs.Json.Reader
import Darkroom.Proofs.Graph.Codec
import Darkroom.Proofs.Job.Codec
import Darkroom.Proofs.Batch.Plan
import Darkroom.Proofs.Batch.Run
import Darkroom.Proofs.Batch.Outputs
import Darkroom.Proofs.FileTree
import Darkroom.Proofs.Session
import Darkroom.Proofs.Task
import Darkroom.Proofs.Numeric.Word
import Darkroom.Proofs.Numeric.Nearest
import Darkroom.Proofs.Numeric.Overflow
import Darkroom.Proofs.Numeric.Shortest
import Darkroom.Proofs.Json.Scale
import Darkroom.Proofs.Json.Double
import Darkroom.Proofs.Json.Refusal
import Darkroom.Proofs.Graph.Reopen
import Darkroom.Proofs.Graph.Ancestors
import Darkroom.Proofs.Graph.Cause
import Darkroom.Proofs.Graph.WellTyped
import Darkroom.Proofs.Graph.Locality
import Darkroom.Proofs.Graph.Calls
import Darkroom.Proofs.Vision.Order
import Darkroom.Proofs.Color
import Darkroom.Proofs.Confinement
import Darkroom.Proofs.OutputName
import Darkroom.Proofs.Vision.Caption
import Darkroom.Proofs.Graph.Issue
import Darkroom.Proofs.Text.Blank
import Darkroom.Proofs.Text.Substitution
import Darkroom.Proofs.Numeric.Reading
import Darkroom.Proofs.Region.Notation
import Darkroom.Proofs.Graph.Canvas
import Darkroom.Proofs.Vision.Reflection
import Darkroom.Proofs.Vision.Gaussian
import Darkroom.Proofs.Vision.Warp
