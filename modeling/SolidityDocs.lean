import SolidityDocs.Files.Tree
import SolidityDocs.Main
import SolidityDocs.Proofs.Artifact.Roster
import SolidityDocs.Proofs.Document.Records
import SolidityDocs.Proofs.Document.Content
import SolidityDocs.Proofs.Artifact.Compatible
import SolidityDocs.Proofs.Artifact.RoundTrip
import SolidityDocs.Proofs.Document.RoundTrip
import SolidityDocs.Proofs.Document.Ledger
import SolidityDocs.Proofs.Document.Merging
import SolidityDocs.Proofs.Document.Locality
import SolidityDocs.Proofs.Artifact.Outcome
import SolidityDocs.Proofs.Document.Passes
import SolidityDocs.Proofs.Document.Account
import SolidityDocs.Proofs.Files.Tree
import SolidityDocs.Proofs.Command.Docs
import SolidityDocs.Proofs.Artifact.Listing
import SolidityDocs.Proofs.Document.Stages
import SolidityDocs.Proofs.Entry.RoundTrip
import SolidityDocs.Proofs.Entry.Guard
import SolidityDocs.Proofs.Line.Extent
import SolidityDocs.Proofs.Line.Offset
import SolidityDocs.Proofs.Settings.Overlay
import SolidityDocs.Proofs.Line.Start
import SolidityDocs.Proofs.Document.Joining
