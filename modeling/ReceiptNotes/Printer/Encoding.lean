import ReceiptNotes.Printer.Operation
import ReceiptNotes.Text.Utf8

/-! # The printer's byte language

Every operation has a fixed form in bytes. Most are an escape sequence of fixed
length; the data of two-dimensional symbols follow their length, and the data of
a linear barcode run to a separator. Parameters outside the range that the
printer knows are brought to the nearest value inside it, and data that do not
fit a two-byte length are cut off.
-/

namespace ReceiptNotes.Encoding

def escape : UInt8 := 0x1B

/-- The byte that opens a command group behind `escape`. -/
def group : UInt8 := 0x1D

/-- The byte behind the data of a linear barcode. -/
def separator : UInt8 := 0x1E

/-- The nearest value to `n` from `low` to `high`. -/
def clamp (low high n : UInt8) : UInt8 :=
  min (max n low) high

/-- A number in two bytes, the low one first; only its last sixteen bits count. -/
def twoBytes (n : Nat) : Bytes :=
  [UInt8.ofNat n, UInt8.ofNat (n / 256)]

def reset : Bytes := [escape, 0x40]

def cutAfterFeed : Bytes := [escape, 0x64, 2]

def lineFeed : Bytes := [0x0A]

def alignmentCode : Alignment → UInt8
  | .left => 0
  | .center => 1
  | .right => 2

def align (alignment : Alignment) : Bytes :=
  [escape, group, 0x61, alignmentCode alignment]

def bold (on : Bool) : Bytes :=
  [escape, if on then 0x45 else 0x46]

def underline (on : Bool) : Bytes :=
  [escape, 0x2D, if on then 1 else 0]

/-- Sets the character size; eight times is the largest. -/
def size (height width : UInt8) : Bytes :=
  [escape, 0x69, min height 7, min width 7]

def normalSize : Bytes := size 0 0

def symbologyCode : Symbology → UInt8
  | .code39 => 0x34
  | .code128 => 0x36

/-- A linear barcode with its text below, in narrow bars at least one dot high. -/
def barcode (symbology : Symbology) (data : Bytes) (height : UInt8) : Bytes :=
  [escape, 0x62, symbologyCode symbology, 0x32, 0x31, max height 1] ++ data ++ [separator]

/-- Data behind their length in two bytes. What the length cannot count is cut
off. -/
def sized (data : Bytes) : Bytes :=
  let counted := data.take 0xFFFF
  twoBytes counted.length ++ counted

namespace Qr

def opening : Bytes := [escape, group, 0x79]

def selectModel : Bytes := opening ++ [0x53, 0x30, 2]

def errorLevelCode : ErrorLevel → UInt8
  | .low => 0
  | .medium => 1
  | .quartile => 2
  | .high => 3

def setErrorLevel (level : ErrorLevel) : Bytes :=
  opening ++ [0x53, 0x31, errorLevelCode level]

/-- Sets the cell size, one to eight dots. -/
def setCellSize (dots : UInt8) : Bytes :=
  opening ++ [0x53, 0x32, clamp 1 8 dots]

def setData (data : Bytes) : Bytes :=
  opening ++ [0x44, 0x31, 0] ++ sized data

def print : Bytes := opening ++ [0x50]

/-- Everything it takes to print a QR code. -/
def symbol (data : Bytes) (cellSize : UInt8) (level : ErrorLevel) : Bytes :=
  selectModel ++ setErrorLevel level ++ setCellSize cellSize ++ setData data ++ print

end Qr

namespace Pdf417

def opening : Bytes := [escape, group, 0x78]

/-- Sets the error correction, up to level eight. -/
def setEccLevel (level : UInt8) : Bytes :=
  opening ++ [0x53, 0x31, min level 8]

/-- Sets the width of a module, one to fifteen dots. -/
def setModuleWidth (dots : UInt8) : Bytes :=
  opening ++ [0x53, 0x32, clamp 1 15 dots]

/-- Sets the height of a module in multiples of its width, one to ten. -/
def setModuleAspect (ratio : UInt8) : Bytes :=
  opening ++ [0x53, 0x33, clamp 1 10 ratio]

def setData (data : Bytes) : Bytes :=
  opening ++ [0x44] ++ sized data

def print : Bytes := opening ++ [0x50]

/-- Everything it takes to print a PDF417 symbol with modules three times as high
as wide. -/
def symbol (data : Bytes) (moduleWidth eccLevel : UInt8) : Bytes :=
  setEccLevel eccLevel ++ setModuleWidth moduleWidth ++ setModuleAspect 3 ++ setData data ++ print

end Pdf417

end ReceiptNotes.Encoding

namespace ReceiptNotes

def Operation.bytes : Operation → Bytes
  | .reset => Encoding.reset
  | .cut => Encoding.cutAfterFeed
  | .setAlign alignment => Encoding.align alignment
  | .setBold on => Encoding.bold on
  | .setUnderline on => Encoding.underline on
  | .setSize height width => Encoding.size height width
  | .text line => Text.utf8 line
  | .newline => Encoding.lineFeed
  | .qrCode data cellSize level => Encoding.Qr.symbol (Text.utf8 data) cellSize level
  | .pdf417 data moduleWidth eccLevel =>
      Encoding.Pdf417.symbol (Text.utf8 data) moduleWidth eccLevel
  | .barcode symbology data height => Encoding.barcode symbology (Text.utf8 data) height

def Program.bytes (program : Program) : Bytes :=
  program.flatMap Operation.bytes

end ReceiptNotes
