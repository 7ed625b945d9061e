import ReceiptNotes.Printer.Encoding

/-! # What the bytes of a program keep

Different programs may have the same bytes: a parameter out of range is written
as the nearest one inside, data beyond what a two-byte length counts are left
out, and where one text stops and the next begins does not show. The normal form
of a program forgets these differences and no others. Its bytes are those of the
program (`Program.bytes_eq_flatMap`).
-/

namespace ReceiptNotes

/-- One operation as far as its bytes tell. The data of two-dimensional symbols
are bytes here, since they may be cut inside a character. -/
inductive Instruction where
  | reset
  | cut
  | setAlign (alignment : Alignment)
  | setBold (on : Bool)
  | setUnderline (on : Bool)
  | setSize (height width : UInt8)
  | text (line : Text)
  | newline
  | qrCode (data : Bytes) (cellSize : UInt8) (errorLevel : ErrorLevel)
  | pdf417 (data : Bytes) (moduleWidth eccLevel : UInt8)
  | barcode (symbology : Symbology) (data : Text) (height : UInt8)
  deriving DecidableEq, Repr

/-- The parameters brought into their range and the data cut to what is counted. -/
def Operation.instruction : Operation → Instruction
  | .reset => .reset
  | .cut => .cut
  | .setAlign alignment => .setAlign alignment
  | .setBold on => .setBold on
  | .setUnderline on => .setUnderline on
  | .setSize height width => .setSize (min height 7) (min width 7)
  | .text line => .text line
  | .newline => .newline
  | .qrCode data cellSize level =>
      .qrCode ((Text.utf8 data).take 0xFFFF) (Encoding.clamp 1 8 cellSize) level
  | .pdf417 data moduleWidth eccLevel =>
      .pdf417 ((Text.utf8 data).take 0xFFFF) (Encoding.clamp 1 15 moduleWidth) (min eccLevel 8)
  | .barcode symbology data height => .barcode symbology data (max height 1)

namespace Instruction

/-- An instruction put in front of others: an empty text adds nothing, and a text
in front of a text becomes one with it. -/
def before : Instruction → List Instruction → List Instruction
  | .text [], rest => rest
  | .text (c :: line), .text next :: rest => .text (c :: line ++ next) :: rest
  | instruction, rest => instruction :: rest

def bytes : Instruction → Bytes
  | .reset => Encoding.reset
  | .cut => Encoding.cutAfterFeed
  | .setAlign alignment => Encoding.align alignment
  | .setBold on => Encoding.bold on
  | .setUnderline on => Encoding.underline on
  | .setSize height width => Encoding.size height width
  | .text line => Text.utf8 line
  | .newline => Encoding.lineFeed
  | .qrCode data cellSize level => Encoding.Qr.symbol data cellSize level
  | .pdf417 data moduleWidth eccLevel => Encoding.Pdf417.symbol data moduleWidth eccLevel
  | .barcode symbology data height => Encoding.barcode symbology (Text.utf8 data) height

@[simp]
theorem text_nil_before (rest : List Instruction) : (text []).before rest = rest := rfl

/-- Texts in front of others may be joined first or last. -/
theorem text_append_before (first second : Text) (rest : List Instruction) :
    (text (first ++ second)).before rest = (text first).before ((text second).before rest) := by
  cases first with
  | nil => rfl
  | cons c first =>
      cases second with
      | nil => simp
      | cons d second =>
          cases rest with
          | nil => rfl
          | cons head rest => cases head <;> simp [before]

theorem flatMap_bytes_before (instruction : Instruction) (rest : List Instruction) :
    (instruction.before rest).flatMap bytes = instruction.bytes ++ rest.flatMap bytes := by
  unfold before
  split <;> simp [bytes]

end Instruction

namespace Encoding

private theorem min_def (a b : UInt8) : min a b = if a ≤ b then a else b := rfl

private theorem max_def (a b : UInt8) : max a b = if a ≤ b then b else a := rfl

theorem clamp_clamp {low high : UInt8} (bounds : low ≤ high) (n : UInt8) :
    clamp low high (clamp low high n) = clamp low high n := by
  grind [clamp, min_def, max_def]

theorem size_min (height width : UInt8) :
    size (min height 7) (min width 7) = size height width := by
  grind [size, min_def]

theorem barcode_max (symbology : Symbology) (data : Bytes) (height : UInt8) :
    barcode symbology data (max height 1) = barcode symbology data height := by
  grind [barcode, max_def]

theorem sized_take (data : Bytes) : sized (data.take 0xFFFF) = sized data := by
  simp [sized, List.take_take]

theorem Qr.symbol_clamp (data : Bytes) (cellSize : UInt8) (level : ErrorLevel) :
    symbol (data.take 0xFFFF) (clamp 1 8 cellSize) level = symbol data cellSize level := by
  simp only [symbol, setCellSize, setData, sized_take, clamp_clamp (show (1 : UInt8) ≤ 8 by decide)]

theorem Pdf417.symbol_clamp (data : Bytes) (moduleWidth eccLevel : UInt8) :
    symbol (data.take 0xFFFF) (clamp 1 15 moduleWidth) (min eccLevel 8) =
      symbol data moduleWidth eccLevel := by
  have settled : setEccLevel (min eccLevel 8) = setEccLevel eccLevel := by
    grind [setEccLevel, min_def]
  simp only [symbol, setModuleWidth, setData, sized_take, settled,
    clamp_clamp (show (1 : UInt8) ≤ 15 by decide)]

end Encoding

/-- What an instruction forgets about its operation, the bytes do not have. -/
theorem Operation.bytes_instruction (operation : Operation) :
    operation.instruction.bytes = operation.bytes := by
  cases operation with
  | setSize height width => exact Encoding.size_min height width
  | qrCode data cellSize level => exact Encoding.Qr.symbol_clamp (Text.utf8 data) cellSize level
  | pdf417 data moduleWidth eccLevel =>
      exact Encoding.Pdf417.symbol_clamp (Text.utf8 data) moduleWidth eccLevel
  | barcode symbology data height => exact Encoding.barcode_max symbology (Text.utf8 data) height
  | _ => rfl

/-- The operations of a program one after the other, without empty texts and with
those texts joined that meet. -/
def Program.normal (program : Program) : List Instruction :=
  program.foldr (fun operation => operation.instruction.before) []

theorem Program.bytes_eq_flatMap (program : Program) :
    program.bytes = program.normal.flatMap Instruction.bytes := by
  induction program with
  | nil => rfl
  | cons operation program ih =>
      simp only [Program.bytes, Program.normal, List.flatMap_cons, List.foldr_cons] at ih ⊢
      rw [Instruction.flatMap_bytes_before, Operation.bytes_instruction, ← ih]

end ReceiptNotes
