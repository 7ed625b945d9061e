import ReceiptNotes.Calendar.Timestamp
import ReceiptNotes.Command.OfMarkup

/-! # Notes

A note is printed as a slip: its subject if it has one, the time and the date at
either margin, a rule, the lines of the body, and a cut.
-/

namespace ReceiptNotes

structure Note where
  subject : Text
  moment : Timestamp
  body : List Text
  deriving DecidableEq

namespace Note

/-- The subject without blanks around it, unless there is none, and the line with
time and date. -/
def header (note : Note) : List Command :=
  let subject := Text.trim note.subject
  (if subject.isEmpty then [] else [.bold subject, .newLine]) ++
    [.leftRight note.moment.timeText note.moment.dateText]

/-- The commands of the lines, each taken by itself. -/
def bodyCommands (note : Note) : List Command :=
  note.body.flatMap Command.ofLine

def commands (note : Note) : List Command :=
  note.header ++ [.rule true] ++ note.bodyCommands ++ [.cut]

end Note

end ReceiptNotes
