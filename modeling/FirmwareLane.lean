import FirmwareLane.Assembly.Program
import FirmwareLane.Client.CommandLine
import FirmwareLane.Main
import FirmwareLane.Proofs.Assembly.Addresses
import FirmwareLane.Proofs.Assembly.Expansion
import FirmwareLane.Proofs.Assembly.Ranges
import FirmwareLane.Proofs.Assembly.Remarks
import FirmwareLane.Proofs.Classification
import FirmwareLane.Proofs.Client.Assembling
import FirmwareLane.Proofs.Client.Drafting
import FirmwareLane.Proofs.Client.Refusals
import FirmwareLane.Proofs.Message.Travelling
import FirmwareLane.Proofs.Snapshot.Diff
import FirmwareLane.Proofs.Snapshot.Digest
import FirmwareLane.Proofs.Snapshot.Escaping
import FirmwareLane.Proofs.Snapshot.Images
import FirmwareLane.Proofs.Snapshot.Naming
import FirmwareLane.Proofs.Snapshot.Refinement
import FirmwareLane.Proofs.Snapshot.Travelling
import FirmwareLane.Proofs.Transfer.Admission
import FirmwareLane.Proofs.Transfer.Completeness
import FirmwareLane.Proofs.Transfer.Exactness
import FirmwareLane.Proofs.Transfer.Listed
import FirmwareLane.Proofs.Transfer.Restorable
import FirmwareLane.Proofs.Transfer.Stability
import FirmwareLane.Proofs.Worker.Confined
import FirmwareLane.Proofs.Worker.Isolation
import FirmwareLane.Proofs.Worker.Lines
import FirmwareLane.Proofs.Worker.Modified
import FirmwareLane.Proofs.Worker.Timeouts
import FirmwareLane.Proofs.Worker.Versions
import FirmwareLane.Shell.Machine
import FirmwareLane.Snapshot.Diff
import FirmwareLane.Worker.CommandLine
