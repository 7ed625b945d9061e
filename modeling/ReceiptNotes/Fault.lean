import ReceiptNotes.Printer.Profile
import ReceiptNotes.Text.Numeral
import ReceiptNotes.Text.Utf8

/-! # Faults

Everything that can go wrong outside the program's own logic, by cause, and the
wording in which it is reported. What is `reported` comes from elsewhere, such as a link
to a printer, in words of its own.
-/

namespace ReceiptNotes

/-- What the operating system says of a file it cannot provide. -/
inductive FileFault where
  | missing
  | denied
  | notDirectory
  | isDirectory
  | notTerminal
  | reported (text : Text)
  deriving DecidableEq, Repr

/-- Why a job could not be handed over. -/
inductive TransportFault where
  | reported (text : Text)
  | cannotOpen (device : Text) (cause : FileFault)
  | cannotConfigure (cause : FileFault)
  | refused (address : Text)
  deriving DecidableEq, Repr

/-- Why there is no connection to the printer. -/
inductive ConnectionFault where
  | reported (text : Text)
  /-- A printer that is simulated in memory has been switched off. -/
  | offline
  | unreachable (cause : TransportFault)
  deriving DecidableEq, Repr

/-- Why the settings are of no use. -/
inductive ConfigurationFault where
  | reported (text : Text)
  | flaw (found : ProfileFlaw)
  /-- A file that is no profile, and what its reader complains of. -/
  | unreadable (path complaint : Text)
  | unresolved (target cause : Text)
  | noAddress (target : Text)
  deriving DecidableEq, Repr

/-- Why reading or writing failed. -/
inductive IoFault where
  | reported (text : Text)
  | outputFull
  /-- A line that is not UTF-8, and where. -/
  | malformedLine (cause : Text.Utf8.Fault)
  | malformedStream
  | file (cause : FileFault)
  deriving DecidableEq, Repr

inductive Fault where
  | transport (cause : TransportFault)
  | notConnected (cause : ConnectionFault)
  | configuration (cause : ConfigurationFault)
  | io (cause : IoFault)
  deriving DecidableEq, Repr

def Text.Utf8.Fault.message : Text.Utf8.Fault → Text
  | .malformed length index =>
      "invalid utf-8 sequence of ".toList ++ decimal length ++ " bytes from index ".toList ++
        decimal index
  | .truncated index => "incomplete utf-8 byte sequence from index ".toList ++ decimal index

def ProfileFlaw.message : ProfileFlaw → Text
  | noColumns => "columns must be at least 1".toList
  | cellSize dots => "qr_cell_size must be 1-8, got ".toList ++ Text.decimal dots.toNat
  | eccLevel level => "pdf417_ecc_level must be 0-8, got ".toList ++ Text.decimal level.toNat

/-- The wording of the operating system, with its number. -/
def FileFault.message : FileFault → Text
  | missing => "No such file or directory (os error 2)".toList
  | denied => "Permission denied (os error 13)".toList
  | notDirectory => "Not a directory (os error 20)".toList
  | isDirectory => "Is a directory (os error 21)".toList
  | notTerminal => "Inappropriate ioctl for device (os error 25)".toList
  | reported text => text

def TransportFault.message : TransportFault → Text
  | reported text => text
  | cannotOpen device cause =>
      "Failed to open ".toList ++ device ++ ": ".toList ++ cause.message
  | cannotConfigure cause => "tcgetattr failed: ".toList ++ cause.message
  | refused address =>
      "Connect to ".toList ++ address ++ " failed: Connection refused (os error 111)".toList

def ConfigurationFault.message : ConfigurationFault → Text
  | reported text => text
  | flaw found => found.message
  | unreadable path complaint =>
      "Invalid profile ".toList ++ path ++ ": ".toList ++ complaint
  | unresolved target cause => "Cannot resolve ".toList ++ target ++ ": ".toList ++ cause
  | noAddress target => "No address for ".toList ++ target

def IoFault.message : IoFault → Text
  | reported text => text
  | outputFull => "sink full".toList
  | malformedLine cause => cause.message
  | malformedStream => "stream did not contain valid UTF-8".toList
  | file cause => cause.message

/-- What went wrong with a connection. A transport's fault is told as a fault. -/
def ConnectionFault.message : ConnectionFault → Text
  | reported text => text
  | offline => "memory transport is offline".toList
  | unreachable cause => "Transport error: ".toList ++ cause.message

def Fault.message : Fault → Text
  | transport cause => "Transport error: ".toList ++ cause.message
  | notConnected cause => "Printer not connected: ".toList ++ cause.message
  | configuration cause => "Configuration error: ".toList ++ cause.message
  | io cause => "I/O error: ".toList ++ cause.message

end ReceiptNotes
