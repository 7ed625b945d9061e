import ReceiptNotes.Text.Basic

/-! # Printer profiles

What has to be known of a printer: how many characters fit on a line, and the
dimensions of symbols. A profile is usable if a line holds something and the
symbols have sizes that exist.
-/

namespace ReceiptNotes

structure Profile where
  name : Text
  columns : UInt64
  /-- Size of a QR cell in dots. -/
  qrCellSize : UInt8
  /-- Height of linear barcodes in dots. -/
  barcodeHeight : UInt8
  /-- Width of a PDF417 module in dots. -/
  pdf417ModuleWidth : UInt8
  /-- Error correction of PDF417 symbols. -/
  pdf417EccLevel : UInt8
  deriving DecidableEq, Repr

/-- What makes a profile unusable. -/
inductive ProfileFlaw where
  | noColumns
  | cellSize (dots : UInt8)
  | eccLevel (level : UInt8)
  deriving DecidableEq, Repr

namespace Profile

/-- The printer with its full line of 48 characters. -/
def tsp650ii : Profile where
  name := "Star TSP650II".toList
  columns := 48
  qrCellSize := 6
  barcodeHeight := 80
  pdf417ModuleWidth := 3
  pdf417EccLevel := 2

/-- The profile for notes: the same printer with 41 characters on a line. -/
def default : Profile :=
  { tsp650ii with columns := 41 }

instance : Inhabited Profile := ⟨default⟩

def width (profile : Profile) : Nat :=
  profile.columns.toNat

/-- The first flaw of a profile, if it has one. -/
def flaw? (profile : Profile) : Option ProfileFlaw :=
  if profile.columns = 0 then some .noColumns
  else if profile.qrCellSize < 1 ∨ 8 < profile.qrCellSize then some (.cellSize profile.qrCellSize)
  else if 8 < profile.pdf417EccLevel then some (.eccLevel profile.pdf417EccLevel)
  else none

end Profile

end ReceiptNotes
