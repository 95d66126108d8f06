import Idl.Binary64
import Idl.Command
import Idl.Highlight
import Idl.Main
import Idl.Workspace
import Idl.Proofs.Canonical.Comments
import Idl.Proofs.Canonical.Parsed
import Idl.Proofs.Grammar.ErrorKinds
import Idl.Proofs.Workspace.Latest
import Idl.Proofs.Grammar.FirstFailure
import Idl.Proofs.Canonical.Writable
import Idl.Proofs.Text.Lines
import Idl.Proofs.Token.Excerpt
import Idl.Proofs.Document.Nesting
import Idl.Proofs.Document.Symbols
import Idl.Proofs.Document.Formatting
import Idl.Proofs.Command.Settled
import Idl.Proofs.Document.Hover
import Idl.Proofs.Grammar.Landmarks
import Idl.Proofs.Grammar.Progress
import Idl.Proofs.Highlight.BlockComments
import Idl.Proofs.Highlight.Canonical
import Idl.Proofs.Highlight.Stray
import Idl.Proofs.Listing.Faithful
import Idl.Proofs.Diagnostic.Colour
import Idl.Proofs.Diagnostic.Carets
import Idl.Proofs.Command.Check
import Idl.Proofs.Token.Quotation
import Idl.Proofs.Project.Nearest
