import ReceiptNotes.Printer.Encoding
import ReceiptNotes.Printer.Profile
import ReceiptNotes.Text.Column

/-! # The printer's buffer

A printer records operations and sends nothing by itself. Finishing turns what has
been recorded into a finished program that starts with a reset, so that no style
is carried over from one job to the next. Taking the job yields the bytes of all
finished programs; what is not finished stays recorded.
-/

namespace ReceiptNotes

namespace Profile

def rule (profile : Profile) : Text :=
  Text.dashes profile.width

def qrCode (profile : Profile) (data : Text) : Operation :=
  .qrCode data profile.qrCellSize .medium

def pdf417 (profile : Profile) (data : Text) : Operation :=
  .pdf417 data profile.pdf417ModuleWidth profile.pdf417EccLevel

def barcode (profile : Profile) (symbology : Symbology) (data : Text) : Operation :=
  .barcode symbology data profile.barcodeHeight

end Profile

def TextSize.operation : TextSize → Operation
  | normal => .setSize 0 0
  | quad => .setSize 1 1

structure Printer where
  profile : Profile
  /-- Operations recorded since a program was last finished. -/
  recorded : Array Operation
  /-- Finished programs that have not been taken. -/
  finished : Array Program
  deriving DecidableEq, Repr

namespace Printer

def ofProfile (profile : Profile) : Printer :=
  ⟨profile, #[], #[]⟩

/-- Records operations behind those recorded already. -/
def record (printer : Printer) (operations : List Operation) : Printer :=
  { printer with recorded := printer.recorded ++ operations }

/-- Finishes what has been recorded. A program without operations is not worth
finishing. -/
def finish (printer : Printer) : Printer :=
  if printer.recorded.isEmpty then printer
  else
    { printer with
      recorded := #[]
      finished := printer.finished.push (.reset :: printer.recorded.toList) }

def clear (printer : Printer) : Printer :=
  ofProfile printer.profile

/-- The bytes of the finished programs, and the printer without those programs. -/
def takeJob (printer : Printer) : Bytes × Printer :=
  (printer.finished.toList.flatMap Program.bytes, { printer with finished := #[] })

@[simp]
theorem profile_record (printer : Printer) (operations : List Operation) :
    (printer.record operations).profile = printer.profile := rfl

@[simp]
theorem finished_record (printer : Printer) (operations : List Operation) :
    (printer.record operations).finished = printer.finished := rfl

@[simp]
theorem recorded_record (printer : Printer) (operations : List Operation) :
    (printer.record operations).recorded.toList = printer.recorded.toList ++ operations := by
  simp [record]

@[simp]
theorem profile_finish (printer : Printer) : printer.finish.profile = printer.profile := by
  unfold finish
  split <;> rfl

@[simp]
theorem recorded_finish (printer : Printer) : printer.finish.recorded = #[] := by
  unfold finish
  split
  next h => simpa using h
  · rfl

/-- Finishing adds the recorded operations as a program of their own, if there are
any. -/
theorem finished_finish (printer : Printer) :
    printer.finish.finished.toList =
      printer.finished.toList ++
        if printer.recorded = #[] then [] else [.reset :: printer.recorded.toList] := by
  unfold finish
  by_cases h : printer.recorded = #[] <;> simp [h]

end Printer

end ReceiptNotes
