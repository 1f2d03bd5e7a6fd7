import StructEndian.Event
import StructEndian.Main
import StructEndian.Proofs.Checked.Generation
import StructEndian.Proofs.CommandLine.Delivery
import StructEndian.Proofs.Declaration.Assignment
import StructEndian.Proofs.Declaration.Breaking
import StructEndian.Proofs.Declaration.Editing
import StructEndian.Proofs.Declaration.Grammar
import StructEndian.Proofs.Declaration.Pieces
import StructEndian.Proofs.Declaration.Printing
import StructEndian.Proofs.Declaration.RoundTrip
import StructEndian.Proofs.Declaration.Scanning
import StructEndian.Proofs.Declaration.Spelling
import StructEndian.Proofs.Declaration.Tag
import StructEndian.Proofs.Declaration.TypeWords
import StructEndian.Proofs.Declaration.WellFormed
import StructEndian.Proofs.Generation.Appending
import StructEndian.Proofs.Generation.Lines
import StructEndian.Proofs.Generation.Mirror
import StructEndian.Proofs.Generation.Options
import StructEndian.Proofs.Generation.Places
import StructEndian.Proofs.Generation.Table
import StructEndian.Proofs.Memory.Reversal
import StructEndian.Proofs.Packing.Greedy
import StructEndian.Proofs.Packing.Rejection
import StructEndian.Proofs.Region.Walk
import StructEndian.Proofs.Declaration.Occurrence
import StructEndian.Proofs.Declaration.Qualifier
import StructEndian.Proofs.Memory.ByteOrder
import StructEndian.Proofs.Declaration.NormalForm
