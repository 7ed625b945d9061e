import ReceiptNotes.Text.Basic

/-! # Printer operations

One operation is one primitive step of a receipt printer: a style switched on or
off, a stretch of text, a symbol, a cut. Operations are what a printer buffers
before they become bytes.
-/

namespace ReceiptNotes

/-- Where a line is set between the margins. -/
inductive Alignment where
  | left
  | center
  | right
  deriving DecidableEq, Repr

/-- How much of a QR code may be damaged: about 7, 15, 25 or 30 percent. -/
inductive ErrorLevel where
  | low
  | medium
  | quartile
  | high
  deriving DecidableEq, Repr

inductive Symbology where
  | code39
  | code128
  deriving DecidableEq, Repr

/-- The size of characters: as they are, or doubled both ways. -/
inductive TextSize where
  | normal
  | quad
  deriving DecidableEq, Repr

inductive Operation where
  | reset
  | cut
  | setAlign (alignment : Alignment)
  | setBold (on : Bool)
  | setUnderline (on : Bool)
  /-- Character size; both numbers count the multiples beyond the first. -/
  | setSize (height width : UInt8)
  | text (line : Text)
  | newline
  | qrCode (data : Text) (cellSize : UInt8) (errorLevel : ErrorLevel)
  | pdf417 (data : Text) (moduleWidth eccLevel : UInt8)
  | barcode (symbology : Symbology) (data : Text) (height : UInt8)
  deriving DecidableEq, Repr

/-- Operations in the order in which they are performed. -/
abbrev Program := List Operation

end ReceiptNotes
