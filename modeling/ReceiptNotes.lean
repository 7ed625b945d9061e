import ReceiptNotes.CommandLine.Run
import ReceiptNotes.Main
import ReceiptNotes.Printer.Device
import ReceiptNotes.Proofs.Address.Bare
import ReceiptNotes.Proofs.Command.Lockstep
import ReceiptNotes.Proofs.Command.Paper
import ReceiptNotes.Proofs.Command.Style
import ReceiptNotes.Proofs.CommandLine.HexDump
import ReceiptNotes.Proofs.CommandLine.Preview
import ReceiptNotes.Proofs.Markup.Bookmark
import ReceiptNotes.Proofs.Markup.Centering
import ReceiptNotes.Proofs.Markup.Neighbours
import ReceiptNotes.Proofs.Markup.Preview
import ReceiptNotes.Proofs.Markup.Respelling
import ReceiptNotes.Proofs.Markup.Rewriting
import ReceiptNotes.Proofs.Note.Capture
import ReceiptNotes.Proofs.Note.Heading
import ReceiptNotes.Proofs.Note.Slip
import ReceiptNotes.Proofs.Printer.Conservation
import ReceiptNotes.Proofs.Printer.Decoding
import ReceiptNotes.Proofs.Printer.Instruction
import ReceiptNotes.Proofs.Printer.ProfileText
import ReceiptNotes.Proofs.Printer.Reader
import ReceiptNotes.Proofs.Session.Cancellation
import ReceiptNotes.Proofs.Session.Isolation
import ReceiptNotes.Proofs.Session.Refinement
import ReceiptNotes.Proofs.Session.Sources
import ReceiptNotes.Proofs.Session.Tolerance
import ReceiptNotes.Proofs.Session.Transcription
import ReceiptNotes.Proofs.Session.Truncation
