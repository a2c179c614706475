import Collapsing.Hydra.Layout
import Collapsing.Main
import Collapsing.Tour
import Collapsing.Worksheet
import Collapsing.Proofs.Term.Copies
import Collapsing.Proofs.Term.DegreeRange
import Collapsing.Proofs.Term.Descent
import Collapsing.Proofs.Term.HigherDegree
import Collapsing.Proofs.Term.Increase
import Collapsing.Proofs.Term.NormalForm
import Collapsing.Proofs.Term.OmegaDegree
import Collapsing.Proofs.Term.Tower
import Collapsing.Proofs.Limited.Expansion
import Collapsing.Proofs.Limited.Order
import Collapsing.Proofs.Limited.Writing
import Collapsing.Proofs.Reader.Acceptance
import Collapsing.Proofs.Reader.FirstFault
import Collapsing.Proofs.Display.Constants
import Collapsing.Proofs.Display.FullText
import Collapsing.Proofs.Display.Printed
import Collapsing.Proofs.Display.Readable
import Collapsing.Proofs.Display.Tex
import Collapsing.Proofs.Display.Typeset
import Collapsing.Proofs.Raw.Worksheet
import Collapsing.Proofs.Hydra.Closure
import Collapsing.Proofs.Hydra.Drawing
import Collapsing.Proofs.Hydra.Encoding
import Collapsing.Proofs.Calculator.Answers
import Collapsing.Proofs.Calculator.Limit
import Collapsing.Proofs.Calculator.Session
import Collapsing.Proofs.Calculator.Agreement
import Collapsing.Proofs.Display.RunLoop
import Collapsing.Proofs.Display.Saturation
import Collapsing.Proofs.Raw.SequenceOrder
import Collapsing.Proofs.Term.Sorting
import Collapsing.Proofs.Display.TexFaithful
import Collapsing.Proofs.Hydra.Forest
import Collapsing.Proofs.Hydra.Outline
import Collapsing.Proofs.Raw.Addition
import Collapsing.Proofs.Raw.Multiples
import Collapsing.Proofs.Raw.Concatenation
import Collapsing.Proofs.Raw.NormalForm
import Collapsing.Proofs.Raw.Numerals
import Collapsing.Proofs.Raw.Subscripts
