import Cutscene.Main
import Cutscene.Stage.Stub
import Cutscene.Proofs.Source.RoundTrip
import Cutscene.Proofs.Source.Rereading
import Cutscene.Proofs.Record.Canonical
import Cutscene.Proofs.Script.Truncation
import Cutscene.Proofs.Script.Text
import Cutscene.Proofs.Stage.Handling
import Cutscene.Proofs.Stage.Idle
import Cutscene.Proofs.Stage.Suffix
import Cutscene.Proofs.Stage.Blocked
import Cutscene.Proofs.Source.Numbering
import Cutscene.Proofs.Stage.Catalog
import Cutscene.Proofs.Program.Play
import Cutscene.Proofs.Stage.Recorded
import Cutscene.Proofs.Program.Rerun
import Cutscene.Proofs.Stage.Timer
import Cutscene.Proofs.Record.Length
import Cutscene.Proofs.Stage.Fade
import Cutscene.Proofs.Stage.Arrival
import Cutscene.Proofs.Stage.Drawn
