import Typographical.Command.Run
import Typographical.Formula.Draft
import Typographical.Formula.Inspect
import Typographical.Main
import Typographical.Proofs.Diagnosis
import Typographical.Proofs.ExitStatus
import Typographical.Proofs.Expectation
import Typographical.Proofs.Findings
import Typographical.Proofs.Insertion
import Typographical.Proofs.Layout
import Typographical.Proofs.Longest
import Typographical.Proofs.Meaning
import Typographical.Proofs.Openness
import Typographical.Proofs.Renaming
import Typographical.Proofs.Rendering
import Typographical.Proofs.Sequence
import Typographical.Proofs.Session
import Typographical.Proofs.SetAlgebra
import Typographical.Proofs.Spacing
import Typographical.Proofs.Stream
import Typographical.Proofs.Termination
import Typographical.Proofs.Threshold
import Typographical.Proofs.Vacuous
import Typographical.Proofs.WellFormed
