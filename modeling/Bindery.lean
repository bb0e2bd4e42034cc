import Bindery.FileTree.Edit
import Bindery.Library.Access
import Bindery.Library.Platform
import Bindery.Library.Session
import Bindery.Main
import Bindery.MessagePack.Reader
import Bindery.Proofs.Documentation
import Bindery.Proofs.Event.Visible
import Bindery.Proofs.FileTree.Growth
import Bindery.Proofs.Generation.Frame
import Bindery.Proofs.Generation.Inputs
import Bindery.Proofs.Generation.Regeneration
import Bindery.Proofs.Generation.Halves
import Bindery.Proofs.Generation.Rendering
import Bindery.Proofs.Header.Definitions
import Bindery.Proofs.Header.Names
import Bindery.Proofs.Header.NamesOnce
import Bindery.Proofs.Header.References
import Bindery.Proofs.Json.RoundTrip
import Bindery.Proofs.Library.Agreement
import Bindery.Proofs.Library.Answers
import Bindery.Proofs.Library.Session
import Bindery.Proofs.Library.Slots
import Bindery.Proofs.MessagePack.RoundTrip
import Bindery.Proofs.Scan.Annotations
import Bindery.Proofs.Scan.Counterpart
import Bindery.Proofs.Scan.Newline
import Bindery.Proofs.Scan.Records
import Bindery.Proofs.Scan.Selection
import Bindery.Proofs.Scan.Strict
import Bindery.Proofs.Signature.Closing
import Bindery.Proofs.Signature.Insertion
import Bindery.Proofs.Signature.RoundTrip
import Bindery.Proofs.Signature.Symbol
import Bindery.Proofs.Signature.WrittenLine
import Bindery.Proofs.Surface.History
import Bindery.Proofs.TypeMap
import Bindery.Text.Hex
import Bindery.Proofs.Scan.Marker
import Bindery.Proofs.Library.Location
import Bindery.Proofs.Library.Access
import Bindery.Proofs.CommandLine.Given
import Bindery.Proofs.CommandLine.Run
