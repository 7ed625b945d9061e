import ReceiptNotes.Text.Basic

/-! # Lines

Cutting a stream at its line breaks, for characters and for bytes alike. A line
break is a line feed, with or without one carriage return before it; a carriage
return elsewhere belongs to its line. Nothing after the last break is no line,
and something after it is a last line. The pieces joined are the stream again
(`flatten_pieces`).
-/

namespace ReceiptNotes.Lines

variable {α : Type} [DecidableEq α]

/-- The pieces of a stream, each but perhaps the last ended by its own `lf`. -/
def pieces (lf : α) (stream : List α) : List (List α) :=
  stream.foldr
    (fun c later =>
      if c = lf then [c] :: later
      else match later with
        | [] => [[c]]
        | piece :: later => (c :: piece) :: later)
    []

theorem pieces_cons (lf c : α) (stream : List α) :
    pieces lf (c :: stream) =
      if c = lf then [c] :: pieces lf stream
      else match pieces lf stream with
        | [] => [[c]]
        | piece :: later => (c :: piece) :: later := rfl

theorem flatten_pieces (lf : α) (stream : List α) : (pieces lf stream).flatten = stream := by
  induction stream with
  | nil => rfl
  | cons c stream ih =>
      rw [pieces_cons]
      split
      · simp [ih]
      · split
        next h => simp_all
        next piece later h =>
            rw [h] at ih
            simpa using ih

/-- A piece without its line break: a last `lf`, and a `cr` right before it. -/
def chomp (lf cr : α) (piece : List α) : List α :=
  match piece.reverse with
  | [] => []
  | last :: before =>
      if last = lf then
        match before with
        | [] => []
        | c :: rest => if c = cr then rest.reverse else before.reverse
      else piece

/-- The lines of a stream without their line breaks. -/
def split (lf cr : α) (stream : List α) : List (List α) :=
  (pieces lf stream).map (chomp lf cr)

end ReceiptNotes.Lines

namespace ReceiptNotes

def Text.lines (text : Text) : List Text :=
  Lines.split '\n' '\r' text

/-- The stretches of a byte stream that make up its lines, with their line breaks. -/
def Bytes.pieces (bytes : Bytes) : List Bytes :=
  Lines.pieces 0x0A bytes

end ReceiptNotes
