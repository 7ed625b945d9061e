import ReceiptNotes.Markup.Scan

/-! # Going back in a line

Whoever scans a line may ask for the next item, go back to the start of the line, keep
the scanner aside and go on with the one kept aside.
-/

namespace ReceiptNotes.Markup

/-- The scanner in use and the one that has been kept aside. -/
structure Bookmark where
  scanner : Scanner
  aside : Scanner
  deriving DecidableEq, Repr

namespace Bookmark

/-- Before any other scanner is kept aside, it is a fresh one. -/
def ofLine (line : Text) : Bookmark :=
  ⟨.ofLine line, .ofLine line⟩

inductive Call where
  | next
  | restart
  | save
  | load
  deriving DecidableEq, Repr

inductive Reply where
  /-- The next item, if there is one. -/
  | item (item : Option Item)
  | done
  deriving Repr

/-- The reply to a call, and the scanners after it. -/
def answer (bookmark : Bookmark) : Call → Reply × Bookmark
  | .next =>
      match bookmark.scanner.next? with
      | some (item, after) => (.item (some item), { bookmark with scanner := after })
      | none => (.item none, bookmark)
  | .restart => (.done, { bookmark with scanner := bookmark.scanner.restart })
  | .save => (.done, { bookmark with aside := bookmark.scanner })
  | .load => (.done, { bookmark with scanner := bookmark.aside })

/-- The replies to calls in the order of the calls, and the scanners after them. -/
def answerAll (bookmark : Bookmark) : List Call → List Reply × Bookmark
  | [] => ([], bookmark)
  | call :: later =>
      let (reply, bookmark) := bookmark.answer call
      let (replies, bookmark) := bookmark.answerAll later
      (reply :: replies, bookmark)

end Bookmark

end ReceiptNotes.Markup
