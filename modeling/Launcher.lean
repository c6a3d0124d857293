import Launcher.Main
import Launcher.Proofs.Atomicity
import Launcher.Proofs.Session
import Launcher.Proofs.Contract
import Launcher.Proofs.Journal
import Launcher.Proofs.Remembrance
import Launcher.Proofs.Report
import Launcher.Proofs.Bracket
import Launcher.Proofs.Crowd.Interleaving
import Launcher.Proofs.Crowd.Frame
import Launcher.Proofs.Crowd.Installation
import Launcher.Proofs.FirstFailure
import Launcher.Proofs.Tree.LastLink
import Launcher.Proofs.Delivery
import Launcher.Proofs.WriteFailure
import Launcher.Proofs.Platforms
import Launcher.Proofs.VerbList
import Launcher.Proofs.Meter
import Launcher.Proofs.Parents
import Launcher.Proofs.Whole
import Launcher.Proofs.StatusWord
import Launcher.Proofs.ExecuteBits
import Launcher.Proofs.Restart
import Launcher.Proofs.Admission
import Launcher.Proofs.Naming
