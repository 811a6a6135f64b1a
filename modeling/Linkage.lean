import Linkage.Session.Step
import Linkage.Document.Settings
import Linkage.Log.Journal
import Linkage.Settings
import Linkage.Text.Event
import Linkage.Text.Failure
import Linkage.Arena
import Linkage.Scalar.Binary
import Linkage.Decimal.Fixed
import Linkage.Decimal.Shortest
import Linkage.Decimal.Significant
import Linkage.Decimal.Reading
import Linkage.Proofs.Act
import Linkage.Proofs.Scene.Sound
import Linkage.Proofs.Scene.Change
import Linkage.Proofs.Scene.Edit
import Linkage.Proofs.Scene.Frame
import Linkage.Proofs.Scene.Run
import Linkage.Proofs.Sketch.Sound
import Linkage.Proofs.Sketch.Change
import Linkage.Proofs.Scene.Measure
import Linkage.Proofs.Sketch.Edit
import Linkage.Proofs.Sketch.Withdraw
import Linkage.Proofs.Sketch.Run
import Linkage.Proofs.Sketch.Prune
import Linkage.Proofs.Sketch.Refresh
import Linkage.Proofs.Bench
import Linkage.Proofs.Real
import Linkage.Proofs.Triangle
import Linkage.Proofs.Faithful
import Linkage.Proofs.Motion
import Linkage.Proofs.Failing
import Linkage.Proofs.Rest
import Linkage.Proofs.Scene.Bounds
import Linkage.Proofs.Declare
import Linkage.Proofs.Deletion
import Linkage.Proofs.Mend
import Linkage.Proofs.Plane
import Linkage.Proofs.Momentum
import Linkage.Proofs.Locality
import Linkage.Proofs.Renaming
import Linkage.Proofs.Mirror
import Linkage.Proofs.Rigid
import Linkage.Proofs.Placement
import Linkage.Proofs.Removal
import Linkage.Proofs.Hold
import Linkage.Proofs.Scene.Footprint
import Linkage.Proofs.Scene.Partway
import Linkage.Proofs.Session
import Linkage.Proofs.Stepping
import Linkage.Proofs.Wide
import Linkage.Proofs.Lasting
import Linkage.Proofs.Striking
import Linkage.Proofs.Supply
import Linkage.Proofs.Drag
import Linkage.Proofs.Accepted
import Linkage.Proofs.Slack
import Linkage.Proofs.Refusal
import Linkage.Proofs.Railing
import Linkage.Proofs.Undoing
import Linkage.Proofs.Creating
import Linkage.Proofs.Gesture
import Linkage.Proofs.Sweeping
import Linkage.Proofs.Damping
import Linkage.Proofs.Impulse
import Linkage.Proofs.Gliding
import Linkage.Proofs.Scene.Lines
import Linkage.Proofs.Comparison
import Linkage.Proofs.Loading
import Linkage.Proofs.Log.Files
import Linkage.Proofs.Log.Sheets
import Linkage.Proofs.Nearest
import Linkage.Proofs.Splitting
import Linkage.Proofs.Displacement
