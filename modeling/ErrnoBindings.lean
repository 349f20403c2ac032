import ErrnoBindings.Artifact.Bindings
import ErrnoBindings.Artifact.Macros
import ErrnoBindings.Listing.Canonical
import ErrnoBindings.Main
import ErrnoBindings.Proofs.CLiteral.Context
import ErrnoBindings.Proofs.Artifact.RoundTrip
import ErrnoBindings.Proofs.Artifact.Lookup
import ErrnoBindings.Proofs.Tree.Descent
import ErrnoBindings.Proofs.Artifact.Writing
import ErrnoBindings.Proofs.Text.Words
import ErrnoBindings.Proofs.Listing.Canonical
import ErrnoBindings.Proofs.Artifact.History
import ErrnoBindings.Proofs.Run.Status
import ErrnoBindings.Proofs.Tree.Entering
import ErrnoBindings.Proofs.Artifact.Independence
import ErrnoBindings.Proofs.Listing.Composition
import ErrnoBindings.Proofs.Run.Stages
import ErrnoBindings.Proofs.Arguments.Accepted
import ErrnoBindings.Proofs.Run.Interchange
import ErrnoBindings.Proofs.Text.Layout
import ErrnoBindings.Proofs.Text.Numeral
import ErrnoBindings.Proofs.Listing.Grammar
import ErrnoBindings.Proofs.Listing.Spans
import ErrnoBindings.Proofs.Artifact.Inclusion
import ErrnoBindings.Proofs.Table.Duplicates
import ErrnoBindings.Proofs.Listing.Newlines
import ErrnoBindings.Proofs.Arguments.Given
import ErrnoBindings.Proofs.Run.Precedence
import ErrnoBindings.Proofs.Run.Course
import ErrnoBindings.Proofs.Run.Observation
import ErrnoBindings.Proofs.Run.Log
import ErrnoBindings.Proofs.Run.Script
import ErrnoBindings.Proofs.CLiteral.Pieces
import ErrnoBindings.Proofs.Command.Normal
import ErrnoBindings.Proofs.Listing.Located
