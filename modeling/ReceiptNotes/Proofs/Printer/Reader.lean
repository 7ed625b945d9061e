import ReceiptNotes.Proofs.Printer.Instruction
import ReceiptNotes.Proofs.Text.Utf8

/-! # Reading a printer's byte stream

A reader of the byte language, made from the forms of its instructions alone. At
every point it looks for the one introducer that the stream goes on with, takes
what belongs to that instruction, and goes on behind it; bytes that no introducer
starts are text up to the next escape or line feed. Since no introducer starts
another (`introducers_apart`), at most one of them fits.

The reader gives back the normal form of a program (`Program.read_bytes`), unless
a text holds an escape or a line break or the data of a linear barcode hold its
separator: these bytes would be taken for something else.
-/

namespace ReceiptNotes

namespace Encoding

/-- `framed` is `data` with the number of its bytes in front, in two bytes, the low
one first. -/
def Framed (data framed : Bytes) : Prop :=
  ∃ low high : UInt8, framed = low :: high :: data ∧ low.toNat + 256 * high.toNat = data.length

theorem framed_sized (data : Bytes) : Framed (data.take 0xFFFF) (sized data) := by
  refine ⟨_, _, rfl, ?_⟩
  have counted : (data.take 0xFFFF).length < 0x10000 := by
    rw [List.length_take]
    omega
  simp only [UInt8.toNat_ofNat']
  omega

end Encoding

/-- Takes something off the front of a stream of bytes, or fails. -/
abbrev Reader := StateT Bytes Option

namespace Reader

variable {α : Type}

def byte : Reader UInt8 := fun
  | [] => none
  | first :: rest => some (first, rest)

/-- Takes exactly these bytes. -/
def mark (bytes : Bytes) : Reader Unit := fun stream =>
  if bytes <+: stream then some ((), stream.drop bytes.length) else none

def take (count : Nat) : Reader Bytes := fun stream =>
  if count ≤ stream.length then some (stream.take count, stream.drop count) else none

/-- Takes the bytes in front of the next `stop`, and `stop` itself. -/
def upTo (stop : UInt8) : Reader Bytes := fun stream =>
  match stream.dropWhile (· != stop) with
  | [] => none
  | _ :: rest => some (stream.takeWhile (· != stop), rest)

/-- Takes the code of one of some values. -/
def oneOf (values : List α) (code : α → UInt8) : Reader α := do
  let found ← byte
  StateT.lift (values.find? (code · == found))

/-- Takes data behind their length in two bytes. -/
def sized : Reader Bytes := do
  let low ← byte
  let high ← byte
  take (low.toNat + 256 * high.toNat)

/-- Takes UTF-8 bytes up to the next `stop`. -/
def textUpTo (stop : UInt8) : Reader Text := do
  StateT.lift (Text.ofUtf8? (← upTo stop))

@[simp]
theorem run_byte (first : UInt8) (rest : Bytes) :
    byte.run (first :: rest) = some (first, rest) := rfl

@[simp]
theorem run_mark_nil (stream : Bytes) : (mark []).run stream = some ((), stream) := rfl

@[simp]
theorem run_mark_cons (b : UInt8) (bytes stream : Bytes) :
    (mark (b :: bytes)).run (b :: stream) = (mark bytes).run stream := by
  simp [mark, StateT.run, List.cons_prefix_cons]

theorem run_take {count : Nat} {bytes : Bytes} (length : bytes.length = count) (rest : Bytes) :
    (take count).run (bytes ++ rest) = some (bytes, rest) := by
  simp [take, StateT.run, ← length]

theorem run_upTo {stop : UInt8} {bytes : Bytes} (free : stop ∉ bytes) (rest : Bytes) :
    (upTo stop).run (bytes ++ stop :: rest) = some (bytes, rest) := by
  have span : (bytes ++ stop :: rest).takeWhile (· != stop) = bytes ∧
      (bytes ++ stop :: rest).dropWhile (· != stop) = stop :: rest :=
    Text.span_append (fun b mem => bne_iff_ne.2 fun same => free (same ▸ mem)) (by simp)
  simp only [upTo, StateT.run, span.1, span.2]

/-- The code of a value is read as the value, if no value listed earlier has it. -/
theorem run_oneOf (values : List α) (code : α → UInt8) (value : α)
    (first : values.find? (code · == code value) = some value) (rest : Bytes) :
    (oneOf values code).run (code value :: rest) = some (value, rest) := by
  simp [oneOf, first]

/-- Data are read to the end that their length tells. -/
theorem run_sized {data framed : Bytes} (length : Encoding.Framed data framed) (rest : Bytes) :
    sized.run (framed ++ rest) = some (data, rest) := by
  obtain ⟨low, high, rfl, counted⟩ := length
  simp only [sized, List.cons_append, StateT.run_bind, run_byte, Option.bind_eq_bind,
    Option.bind_some]
  exact run_take counted.symm rest

theorem run_textUpTo {stop : UInt8} {text : Text} (ascii : stop.toNat < 0x80)
    (free : Char.ofNat stop.toNat ∉ text) (rest : Bytes) :
    (textUpTo stop).run (Text.utf8 text ++ stop :: rest) = some (text, rest) := by
  have unmet : stop ∉ Text.utf8 text := fun mem => free (Text.exists_of_mem_utf8 ascii mem)
  simp [textUpTo, run_upTo unmet]

end Reader

namespace Reader

open Encoding

def align : Reader Instruction :=
  .setAlign <$> oneOf [.left, .center, .right] alignmentCode

def size : Reader Instruction := do
  let height ← byte
  let width ← byte
  return .setSize height width

/-- A QR code behind the choice of its model. -/
def qrCode : Reader Instruction := do
  mark (Qr.opening ++ [0x53, 0x31])
  let level ← oneOf [.low, .medium, .quartile, .high] Qr.errorLevelCode
  mark (Qr.opening ++ [0x53, 0x32])
  let cellSize ← byte
  mark (Qr.opening ++ [0x44, 0x31, 0])
  let data ← sized
  mark Qr.print
  return .qrCode data cellSize level

/-- A PDF417 symbol behind the introducer of its error correction. -/
def pdf417 : Reader Instruction := do
  let eccLevel ← byte
  mark (Pdf417.opening ++ [0x53, 0x32])
  let moduleWidth ← byte
  mark (Pdf417.setModuleAspect 3)
  mark (Pdf417.opening ++ [0x44])
  let data ← sized
  mark Pdf417.print
  return .pdf417 data moduleWidth eccLevel

def barcode : Reader Instruction := do
  let symbology ← oneOf [.code39, .code128] symbologyCode
  mark [0x32, 0x31]
  let height ← byte
  let data ← textUpTo separator
  return .barcode symbology data height

/-- The bytes that start an instruction, each with the reader of what follows. -/
def introducers : List (Bytes × Reader Instruction) :=
  [(Encoding.reset, pure .reset),
    (cutAfterFeed, pure .cut),
    ([escape, group, 0x61], align),
    (bold true, pure (.setBold true)),
    (bold false, pure (.setBold false)),
    (underline true, pure (.setUnderline true)),
    (underline false, pure (.setUnderline false)),
    ([escape, 0x69], size),
    (lineFeed, pure .newline),
    (Qr.selectModel, qrCode),
    (Pdf417.opening ++ [0x53, 0x31], pdf417),
    ([escape, 0x62], barcode)]

/-- A byte that stands in the stream for itself. -/
def isPlain (b : UInt8) : Bool :=
  b != escape && b != 0x0A

def text : Reader Instruction := fun stream =>
  match stream.takeWhile isPlain with
  | [] => none
  | bytes => (Text.ofUtf8? bytes).map (.text ·, stream.dropWhile isPlain)

def instruction : Reader Instruction := fun stream =>
  match introducers.find? (·.1 <+: stream) with
  | some (introducer, body) => body (stream.drop introducer.length)
  | none => text stream

/-- Reads a stream to its end. An instruction that takes no byte would be read for
ever, so it is none. -/
def program (stream : Bytes) : Option (List Instruction) :=
  if stream = [] then some []
  else do
    let (first, rest) ← instruction stream
    if rest.length < stream.length then
      let later ← program rest
      return first :: later
    else none
termination_by stream.length

/-- The introducers are a prefix code. -/
theorem introducers_apart :
    introducers.Pairwise fun one other => ¬ one.1 <+: other.1 ∧ ¬ other.1 <+: one.1 := by
  decide

theorem introducers_not_plain :
    ∀ entry ∈ introducers, ∃ b ∈ entry.1.head?, isPlain b = false := by
  decide

/-- Behind its introducer an instruction is read by its own reader. -/
theorem run_introduced (introducer : Bytes) (body : Reader Instruction)
    (listed : (introducer, body) ∈ introducers) (rest : Bytes) :
    instruction.run (introducer ++ rest) = body.run rest := by
  have found : introducers.find? (·.1 <+: introducer ++ rest) = some (introducer, body) := by
    have apart := introducers_apart
    generalize introducers = entries at listed apart
    induction entries with
    | nil => cases listed
    | cons entry entries ih =>
        obtain ⟨fromEntry, apart⟩ := List.pairwise_cons.1 apart
        rcases List.mem_cons.1 listed with rfl | listed
        · simp
        · -- two prefixes of one stream would be prefixes of each other
          have passed : ¬ entry.1 <+: introducer ++ rest := fun fits =>
            (List.prefix_or_prefix_of_prefix fits (List.prefix_append introducer rest)).elim
              (fromEntry _ listed).1 (fromEntry _ listed).2
          simpa [passed] using ih listed apart
  simp [instruction, StateT.run, found]

/-- Text is read up to the first byte that does not stand for itself. -/
theorem run_text {line : Text} (filled : line ≠ []) (noEscape : '\x1B' ∉ line)
    (noBreak : '\n' ∉ line) {rest : Bytes} (stop : ∀ b ∈ rest.head?, isPlain b = false) :
    instruction.run (Text.utf8 line ++ rest) = some (.text line, rest) := by
  have plain : ∀ b ∈ Text.utf8 line, isPlain b = true := by
    intro b mem
    simp only [isPlain, Bool.and_eq_true, bne_iff_ne]
    constructor <;> rintro rfl
    · exact noEscape (Text.exists_of_mem_utf8 (by decide) mem)
    · exact noBreak (Text.exists_of_mem_utf8 (by decide) mem)
  obtain ⟨taken, dropped⟩ := Text.span_append plain (by simpa using stop)
  obtain ⟨first, others, bytes⟩ : ∃ first others, Text.utf8 line = first :: others :=
    List.exists_cons_of_ne_nil fun empty => filled (Text.utf8_injective empty)
  have unmet : introducers.find? (·.1 <+: Text.utf8 line ++ rest) = none := by
    rw [List.find?_eq_none]
    intro entry listed fits
    obtain ⟨b, head, notPlain⟩ := introducers_not_plain entry listed
    obtain ⟨tail, introducer⟩ := List.head?_eq_some_iff.1 head
    rw [introducer, bytes, List.cons_append, decide_eq_true_iff, List.cons_prefix_cons] at fits
    rw [fits.1, plain first (by simp [bytes])] at notPlain
    cases notPlain
  have back : Text.ofUtf8? (first :: others) = some line := bytes ▸ Text.ofUtf8?_utf8 line
  simp only [instruction, StateT.run, unmet, text, taken, dropped]
  simp only [bytes, back, Option.map_some]

theorem run_align (alignment : Alignment) (rest : Bytes) :
    align.run (alignmentCode alignment :: rest) = some (.setAlign alignment, rest) := by
  have read := run_oneOf [.left, .center, .right] alignmentCode alignment
    (by cases alignment <;> rfl) rest
  simp [align, read]

theorem run_qrCode (data : Bytes) (cellSize : UInt8) (level : ErrorLevel) (rest : Bytes) :
    qrCode.run (Qr.setErrorLevel level ++ (Qr.setCellSize cellSize ++ (Qr.setData data ++
      (Qr.print ++ rest)))) =
      some (.qrCode (data.take 0xFFFF) (clamp 1 8 cellSize) level, rest) := by
  have read := run_oneOf [.low, .medium, .quartile, .high] Qr.errorLevelCode level
    (by cases level <;> rfl)
  simp [qrCode, Qr.setErrorLevel, Qr.setCellSize, Qr.setData, Qr.print, Qr.opening, read,
    run_sized (framed_sized data)]

theorem run_pdf417 (data : Bytes) (moduleWidth eccLevel : UInt8) (rest : Bytes) :
    pdf417.run (eccLevel :: (Pdf417.setModuleWidth moduleWidth ++ (Pdf417.setModuleAspect 3 ++
      (Pdf417.setData data ++ (Pdf417.print ++ rest))))) =
      some (.pdf417 (data.take 0xFFFF) (clamp 1 15 moduleWidth) eccLevel, rest) := by
  simp [pdf417, Pdf417.setModuleWidth, Pdf417.setModuleAspect, Pdf417.setData, Pdf417.print,
    Pdf417.opening, run_sized (framed_sized data)]

theorem run_barcode {data : Text} (free : '\x1E' ∉ data) (symbology : Symbology) (height : UInt8)
    (rest : Bytes) :
    barcode.run (symbologyCode symbology :: 0x32 :: 0x31 :: height ::
      (Text.utf8 data ++ separator :: rest)) = some (.barcode symbology data height, rest) := by
  have read := run_oneOf [.code39, .code128] symbologyCode symbology (by cases symbology <;> rfl)
  have readText := run_textUpTo (show separator.toNat < 0x80 by decide) free rest
  simp [barcode, read, readText]

theorem program_nil : program [] = some [] := by
  rw [program]
  rfl

/-- One instruction at the front of a stream whose rest can be read. -/
theorem program_of_run {stream rest : Bytes} {first : Instruction} {later : List Instruction}
    (front : instruction.run stream = some (first, rest)) (shorter : rest.length < stream.length)
    (behind : program rest = some later) : program stream = some (first :: later) := by
  have filled : stream ≠ [] := by
    rintro rfl
    cases shorter
  rw [program, if_neg filled]
  simp [show instruction stream = some (first, rest) from front, shorter, behind]

/-- A stretch of text in front of a stream that does not start with text. -/
theorem program_text_append {line : Text} (noEscape : '\x1B' ∉ line) (noBreak : '\n' ∉ line)
    {rest : Bytes} (stop : ∀ b ∈ rest.head?, isPlain b = false) {later : List Instruction}
    (behind : program rest = some later) :
    program (Text.utf8 line ++ rest) = some (if line = [] then later else .text line :: later) := by
  by_cases filled : line = []
  · rw [if_pos filled, filled]
    exact behind
  · have bytes : Text.utf8 line ≠ [] := fun empty => filled (Text.utf8_injective empty)
    rw [if_neg filled]
    refine program_of_run (run_text filled noEscape noBreak stop) ?_ behind
    simpa using List.length_pos_iff.2 bytes

end Reader

end ReceiptNotes
