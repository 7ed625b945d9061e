import ReceiptNotes.Text.Blank

/-! # Capturing the body of a note

The lines of a body are captured until the operator leaves two blank lines. The
first two lines alone do not end a note, so a note may start with blank lines.
Blank lines at the end are not part of the note.
-/

namespace ReceiptNotes

/-- The lines captured so far, the last one first. -/
structure Body where
  newestFirst : List Text
  deriving DecidableEq, Repr

namespace Body

def empty : Body := ⟨[]⟩

def ofLines (lines : List Text) : Body := ⟨lines.reverse⟩

def lines (body : Body) : List Text := body.newestFirst.reverse

def push (body : Body) (line : Text) : Body := ⟨line :: body.newestFirst⟩

/-- At least three lines have been captured and the last two are blank. -/
def isComplete (body : Body) : Bool :=
  match body.newestFirst with
  | last :: before :: _ :: _ => Text.isBlankLine before && Text.isBlankLine last
  | _ => false

/-- The lines without the blank ones at the end. -/
def finish (body : Body) : List Text :=
  (body.newestFirst.dropWhile Text.isBlankLine).reverse

@[simp]
theorem lines_empty : empty.lines = [] := rfl

@[simp]
theorem lines_ofLines (lines : List Text) : (ofLines lines).lines = lines :=
  List.reverse_reverse lines

@[simp]
theorem lines_push (body : Body) (line : Text) :
    (body.push line).lines = body.lines ++ [line] := by
  simp [lines, push]

end Body

end ReceiptNotes
