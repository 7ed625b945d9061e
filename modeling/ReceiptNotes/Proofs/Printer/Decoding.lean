import ReceiptNotes.Proofs.Printer.Reader

/-! # The bytes of a program tell its normal form

A text may hold neither an escape nor a line break, and the data of a linear
barcode no separator; all else may hold any bytes at all, escapes included. Of
such programs the reader gets back the normal form (`Program.read_bytes`), so two
of them have the same bytes exactly if they have the same normal form
(`Program.bytes_decodable`).
-/

namespace ReceiptNotes

/-- Nothing in the operation would be taken for the end of its text or data. -/
def Operation.Legible : Operation → Prop
  | .text line => '\x1B' ∉ line ∧ '\n' ∉ line
  | .barcode _ data _ => '\x1E' ∉ data
  | _ => True

instance : DecidablePred Operation.Legible := fun operation => by
  unfold Operation.Legible
  split <;> infer_instance

def Operation.isText : Operation → Bool
  | .text _ => true
  | _ => false

theorem Operation.exists_of_isText {operation : Operation} (isText : operation.isText = true) :
    ∃ line, operation = .text line := by
  cases operation with
  | text line => exact ⟨line, rfl⟩
  | _ => cases isText

/-- Only texts merge with what follows. -/
theorem Operation.instruction_before {operation : Operation} (noText : operation.isText = false)
    (rest : List Instruction) :
    operation.instruction.before rest = operation.instruction :: rest := by
  cases operation with
  | text line => cases noText
  | _ => rfl

theorem Operation.instruction_ne_text {operation : Operation} (noText : operation.isText = false)
    (line : Text) : operation.instruction ≠ .text line := by
  cases operation with
  | text line => cases noText
  | _ => exact fun same => nomatch same

/-- Only with a text does a text merge. -/
theorem Instruction.text_before {rest : List Instruction}
    (apart : ∀ next, rest.head? ≠ some (.text next)) (line : Text) :
    (text line).before rest = if line = [] then rest else text line :: rest := by
  cases line with
  | nil => rfl
  | cons c line =>
      cases rest with
      | nil => rfl
      | cons first rest =>
          cases first with
          | text next => exact absurd rfl (apart next)
          | _ => rfl

namespace Reader

open Encoding

/-- Every operation but a text is read back from its bytes, whatever follows. -/
theorem run_operation {operation : Operation} (noText : operation.isText = false)
    (legible : operation.Legible) (rest : Bytes) :
    instruction.run (operation.bytes ++ rest) = some (operation.instruction, rest) := by
  cases operation with
  | text line => cases noText
  | reset =>
      exact run_introduced Encoding.reset (pure .reset) (by simp [introducers]) rest
  | cut =>
      exact run_introduced cutAfterFeed (pure .cut) (by simp [introducers]) rest
  | newline =>
      exact run_introduced lineFeed (pure .newline) (by simp [introducers]) rest
  | setBold on =>
      exact run_introduced (bold on) (pure (.setBold on))
        (by cases on <;> simp [introducers]) rest
  | setUnderline on =>
      exact run_introduced (underline on) (pure (.setUnderline on))
        (by cases on <;> simp [introducers]) rest
  | setAlign alignment =>
      refine (run_introduced [escape, group, 0x61] align (by simp [introducers]) _).trans ?_
      exact run_align alignment rest
  | setSize height width =>
      exact run_introduced [escape, 0x69] size (by simp [introducers]) _
  | qrCode data cellSize level =>
      simp only [Operation.bytes, Qr.symbol, List.append_assoc]
      rw [run_introduced Qr.selectModel qrCode (by simp [introducers])]
      exact run_qrCode (Text.utf8 data) cellSize level rest
  | pdf417 data moduleWidth eccLevel =>
      simp only [Operation.bytes, Pdf417.symbol, List.append_assoc]
      refine (run_introduced (Pdf417.opening ++ [0x53, 0x31]) pdf417
        (by simp [introducers]) _).trans ?_
      exact run_pdf417 (Text.utf8 data) moduleWidth (min eccLevel 8) rest
  | barcode symbology data height =>
      simp only [Operation.bytes, Encoding.barcode, List.append_assoc]
      refine (run_introduced [escape, 0x62] barcode (by simp [introducers]) _).trans ?_
      exact run_barcode legible symbology (max height 1) rest

end Reader

/-- The bytes of an operation that is no text cannot be mistaken for text. -/
theorem Operation.bytes_not_plain {operation : Operation} (noText : operation.isText = false) :
    ∃ b tail, operation.bytes = b :: tail ∧ Reader.isPlain b = false := by
  cases operation with
  | text line => cases noText
  | newline => exact ⟨_, _, rfl, rfl⟩
  | _ => exact ⟨Encoding.escape, _, rfl, rfl⟩

/-- A reader can tell the end of every text and of all data in the program. -/
def Program.Legible (program : Program) : Prop :=
  ∀ operation ∈ program, operation.Legible

instance : DecidablePred Program.Legible := fun program =>
  inferInstanceAs (Decidable (∀ operation ∈ program, operation.Legible))

namespace Program

theorem bytes_cons (operation : Operation) (program : Program) :
    bytes (operation :: program) = operation.bytes ++ program.bytes := rfl

theorem normal_cons (operation : Operation) (program : Program) :
    normal (operation :: program) = operation.instruction.before program.normal := rfl

/-- A stretch of text and a program behind it are read as the program with the
text in front. -/
theorem read_text_append {program : Program} (legible : program.Legible) (line : Text)
    (noEscape : '\x1B' ∉ line) (noBreak : '\n' ∉ line) :
    Reader.program (Text.utf8 line ++ program.bytes) =
      some ((Instruction.text line).before program.normal) := by
  induction program generalizing line with
  | nil =>
      rw [normal, List.foldr_nil, Instruction.text_before (by simp)]
      exact Reader.program_text_append noEscape noBreak (by simp [bytes]) Reader.program_nil
  | cons operation program ih =>
      change Program at program
      obtain ⟨ofFirst, ofOthers⟩ := List.forall_mem_cons.1 legible
      rw [bytes_cons, normal_cons]
      cases isText : operation.isText with
      | true =>
          -- the two texts are one stretch
          obtain ⟨next, rfl⟩ := Operation.exists_of_isText isText
          obtain ⟨noEscapeNext, noBreakNext⟩ := ofFirst
          rw [Operation.bytes, ← List.append_assoc, ← Text.utf8_append,
            ih ofOthers _ (by simp [noEscape, noEscapeNext]) (by simp [noBreak, noBreakNext])]
          exact congrArg some (Instruction.text_append_before line next program.normal)
      | false =>
          obtain ⟨b, tail, bytes, notPlain⟩ := Operation.bytes_not_plain isText
          have behind : Reader.program program.bytes = some program.normal :=
            ih ofOthers [] (by simp) (by simp)
          have shorter : program.bytes.length < (operation.bytes ++ program.bytes).length := by
            rw [bytes, List.length_append, List.length_cons]
            omega
          have here : Reader.program (operation.bytes ++ program.bytes) =
              some (operation.instruction :: program.normal) :=
            Reader.program_of_run (Reader.run_operation isText ofFirst program.bytes) shorter behind
          rw [Operation.instruction_before isText, Instruction.text_before
            (by simpa using Operation.instruction_ne_text isText)]
          exact Reader.program_text_append noEscape noBreak (by simpa [bytes] using notPlain) here

/-- The reader gets from the bytes of a program its normal form. -/
theorem read_bytes {program : Program} (legible : program.Legible) :
    Reader.program program.bytes = some program.normal :=
  read_text_append legible [] (by simp) (by simp)

end Program

namespace Program

open Encoding

/-- Program bytes are uniquely decodable. Of programs that a reader can tell apart
at all, those and only those with the same normal form have the same bytes, and
the reader recovers it; and in front of the data of a two-dimensional symbol,
however long they are, stands the number of the data bytes that follow. -/
theorem bytes_decodable {first second : Program} (firstLegible : first.Legible)
    (secondLegible : second.Legible) :
    (first.bytes = second.bytes ↔ first.normal = second.normal) ∧
      Reader.program first.bytes = some first.normal ∧
      (∀ data cellSize level, ∃ framed,
        Framed ((Text.utf8 data).take 0xFFFF) framed ∧
          (Operation.qrCode data cellSize level).bytes =
            Qr.selectModel ++ Qr.setErrorLevel level ++ Qr.setCellSize cellSize ++
              (Qr.opening ++ [0x44, 0x31, 0] ++ framed) ++ Qr.print) ∧
      ∀ data moduleWidth eccLevel, ∃ framed,
        Framed ((Text.utf8 data).take 0xFFFF) framed ∧
          (Operation.pdf417 data moduleWidth eccLevel).bytes =
            Pdf417.setEccLevel eccLevel ++ Pdf417.setModuleWidth moduleWidth ++
              Pdf417.setModuleAspect 3 ++ (Pdf417.opening ++ [0x44] ++ framed) ++
              Pdf417.print := by
  refine ⟨⟨fun sameBytes => ?_, fun sameNormal => ?_⟩, read_bytes firstLegible,
    fun data _ _ => ⟨sized (Text.utf8 data), framed_sized _, rfl⟩,
    fun data _ _ => ⟨sized (Text.utf8 data), framed_sized _, rfl⟩⟩
  · have read : some first.normal = some second.normal := by
      rw [← read_bytes firstLegible, sameBytes, read_bytes secondLegible]
    exact Option.some.inj read
  · rw [bytes_eq_flatMap first, sameNormal, ← bytes_eq_flatMap second]

/-- Two spellings of one program: texts that meet, an empty one among them,
parameters out of range, and escapes and separators inside counted data. -/
theorem bytes_decodable_respelled :
    let first : Program :=
      [.text ['a'], .text [], .text ['é'], .setSize 9 200, .qrCode ['\x1B', '@', '\x1E'] 0 .high,
        .barcode .code39 ['\x1B', '\n'] 0, .pdf417 ['\n'] 200 99, .text ['\x1E']]
    let second : Program :=
      [.text ['a', 'é'], .setSize 7 7, .qrCode ['\x1B', '@', '\x1E'] 1 .high, .text [],
        .barcode .code39 ['\x1B', '\n'] 1, .pdf417 ['\n'] 15 8, .text ['\x1E']]
    first.Legible ∧ second.Legible ∧ first ≠ second ∧ first.bytes = second.bytes ∧
      Reader.program first.bytes =
        some [.text ['a', 'é'], .setSize 7 7, .qrCode [0x1B, 0x40, 0x1E] 1 .high,
          .barcode .code39 ['\x1B', '\n'] 1, .pdf417 [0x0A] 15 8, .text ['\x1E']] := by
  intro first second
  have firstLegible : first.Legible := by decide
  have secondLegible : second.Legible := by decide
  have decodable := bytes_decodable firstLegible secondLegible
  exact ⟨firstLegible, secondLegible, by decide, decodable.1.2 rfl, decodable.2.1⟩

end Program

end ReceiptNotes
