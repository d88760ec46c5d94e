import SLFront.About
import SLFront.Log.Journal
import SLFront.Session
import SLFront.Tree.Outline
import SLFront.Tree.Render
import SLFront.Proofs.PrecedenceClimbing
import SLFront.Proofs.Grammar
import SLFront.Proofs.BlockKeywords
import SLFront.Proofs.Decomposition
import SLFront.Proofs.Events
import SLFront.Proofs.RoundTrip
import SLFront.Proofs.Restart
import SLFront.Proofs.Viability
import SLFront.Proofs.Composition
import SLFront.Proofs.FatalErrors
import SLFront.Proofs.LineBreaks
import SLFront.Proofs.TreeSoundness
import SLFront.Proofs.ErrorOrder
import SLFront.Proofs.CaseFolding
import SLFront.Proofs.Progress
import SLFront.Proofs.SessionPlaces
import SLFront.Proofs.DeclarationLayout
import SLFront.Proofs.NormalForm
import SLFront.Proofs.Suggestions
import SLFront.Proofs.Setups
import SLFront.Proofs.ParseJournal
import SLFront.Proofs.Rendering
