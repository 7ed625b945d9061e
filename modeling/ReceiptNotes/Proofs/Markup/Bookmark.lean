import ReceiptNotes.Markup.Bookmark
import ReceiptNotes.Proofs.Markup.Lossless

/-! # A scanner is a number of items

A fresh scan of a line yields a fixed list of items. Whatever has been asked of a scanner
before, it is as if it held no more than the number of items that it has gone past, and
the scanner kept aside another such number (`Bookmark.Place`). Asked for an item, it gives
the one of that number (`Bookmark.replies_indexed`).
-/

namespace ReceiptNotes.Markup

namespace Bookmark

variable {line : Text} {items : List Item} {bookmark : Bookmark} {call : Call}

/-- How many items have been gone past, by the scanner in use and by the one aside. -/
structure Place where
  current : ℕ
  aside : ℕ
  deriving DecidableEq, Repr

namespace Place

def start : Place :=
  ⟨0, 0⟩

/-- The reply to a call that two numbers and a fixed list of items give. -/
def answer (items : List Item) (place : Place) : Call → Reply × Place
  | .next => (.item items[place.current]?, { place with current := place.current + 1 })
  | .restart => (.done, { place with current := 0 })
  | .save => (.done, { place with aside := place.current })
  | .load => (.done, { place with current := place.aside })

def answerAll (items : List Item) (place : Place) : List Call → List Reply × Place
  | [] => ([], place)
  | call :: later =>
      let (reply, place) := place.answer items call
      let (replies, place) := place.answerAll items later
      (reply :: replies, place)

end Place

theorem answerAll_append (first second : List Call) :
    bookmark.answerAll (first ++ second) =
      ((bookmark.answerAll first).1 ++ ((bookmark.answerAll first).2.answerAll second).1,
        ((bookmark.answerAll first).2.answerAll second).2) := by
  induction first generalizing bookmark with
  | nil => rfl
  | cons call first ih => simp only [List.cons_append, answerAll, ih]

theorem after_concat (calls : List Call) :
    (bookmark.answerAll (calls ++ [call])).2 = ((bookmark.answerAll calls).2.answer call).2 := by
  rw [answerAll_append]
  rfl

theorem answer_next :
    bookmark.answer .next = (.item (bookmark.scanner.next?.map Prod.fst),
      { bookmark with scanner := bookmark.scanner.advance }) := by
  rw [answer, Scanner.advance]
  cases bookmark.scanner.next? <;> rfl

/-- Both scanners have gone past as many items of the line as their numbers say. -/
structure At (line : Text) (place : Place) (bookmark : Bookmark) : Prop where
  scanner_eq : bookmark.scanner = Scanner.advance^[place.current] (.ofLine line)
  aside_eq : bookmark.aside = Scanner.advance^[place.aside] (.ofLine line)

end Bookmark

namespace Scanner

@[simp]
theorem line_advance (scanner : Scanner) : scanner.advance.line = scanner.line := by
  rw [advance]
  cases hnext : scanner.next? with
  | none => rfl
  | some pair =>
      obtain ⟨item, after⟩ := pair
      cases yields_of_next? hnext <;> rfl

/-- From wherever it is, a scanner goes back to the start of its own line. -/
theorem restart_iterate (line : Text) (steps : ℕ) :
    (Scanner.advance^[steps] (Scanner.ofLine line)).restart = Scanner.ofLine line := by
  have hline : (Scanner.advance^[steps] (Scanner.ofLine line)).line = line := by
    induction steps with
    | zero => rfl
    | succ steps ih => rw [Function.iterate_succ_apply', line_advance, ih]
  rw [restart, hline]

/-- The items of a line are tokens, and behind them the end of the line or a rejection. -/
theorem exists_items (line : Text) :
    ∃ (tokens : List Token) (last : Item),
      (Scanner.ofLine line).items = tokens.map .ok ++ [last] ∧
      (∀ token ∈ tokens, token.kind ≠ .endOfInput) ∧ ∃ position, Ends line position last := by
  obtain ⟨tokens, text, behind, last, hitems, htokens, -, hends⟩ :=
    Scanner.covers (Scanner.ofLine line) rfl (List.nil_append line).symm rfl
  exact ⟨tokens, last, hitems, htokens.kind_ne, _, hends⟩

end Scanner

namespace Bookmark

variable {line : Text} {place : Place} {bookmark : Bookmark}

namespace At

theorem new (line : Text) : At line Place.start (ofLine line) :=
  ⟨rfl, rfl⟩

/-- A call gets the reply that the numbers give, and keeps the scanners at them. -/
theorem answer (h : At line place bookmark) (call : Call) :
    (bookmark.answer call).1 = (place.answer (Scanner.ofLine line).items call).1 ∧
      At line (place.answer (Scanner.ofLine line).items call).2 (bookmark.answer call).2 := by
  cases call with
  | next =>
      rw [answer_next, h.scanner_eq, Scanner.next?_iterate]
      refine ⟨rfl, ?_, h.aside_eq⟩
      exact (Function.iterate_succ_apply' Scanner.advance _ _).symm
  | restart =>
      refine ⟨rfl, ?_, h.aside_eq⟩
      have hrestart := Scanner.restart_iterate line place.current
      rw [← h.scanner_eq] at hrestart
      exact hrestart
  | save => exact ⟨rfl, h.scanner_eq, h.scanner_eq⟩
  | load => exact ⟨rfl, h.aside_eq, h.aside_eq⟩

theorem answerAll (h : At line place bookmark) (calls : List Call) :
    (bookmark.answerAll calls).1 = (place.answerAll (Scanner.ofLine line).items calls).1 ∧
      At line (place.answerAll (Scanner.ofLine line).items calls).2
        (bookmark.answerAll calls).2 := by
  induction calls generalizing place bookmark with
  | nil => exact ⟨rfl, h⟩
  | cons call calls ih =>
      obtain ⟨hreply, hafter⟩ := h.answer call
      obtain ⟨hreplies, hlast⟩ := ih hafter
      exact ⟨congrArg₂ List.cons hreply hreplies, hlast⟩

end At

/-- Without a scanner being taken back from aside, it makes no difference which one is
there. -/
theorem replies_of_scanner_eq {first second : Bookmark} (h : first.scanner = second.scanner)
    {calls : List Call} (hload : .load ∉ calls) :
    (first.answerAll calls).1 = (second.answerAll calls).1 := by
  induction calls generalizing first second with
  | nil => rfl
  | cons call calls ih =>
      obtain ⟨hcall, hcalls⟩ := not_or.mp (mt List.mem_cons.mpr hload)
      have hstep : (first.answer call).1 = (second.answer call).1 ∧
          (first.answer call).2.scanner = (second.answer call).2.scanner := by
        cases call with
        | next =>
            rw [answer_next, answer_next, h]
            exact ⟨rfl, rfl⟩
        | restart => exact ⟨rfl, congrArg Scanner.restart h⟩
        | save => exact ⟨rfl, h⟩
        | load => exact absurd rfl hcall
      exact congrArg₂ List.cons hstep.1 (ih hstep.2 hcalls)

/-- As long as nothing is kept aside, the scanner there stays as it is. -/
theorem aside_answerAll {calls : List Call} (hsave : .save ∉ calls) :
    (bookmark.answerAll calls).2.aside = bookmark.aside := by
  induction calls generalizing bookmark with
  | nil => rfl
  | cons call calls ih =>
      obtain ⟨hcall, hcalls⟩ := not_or.mp (mt List.mem_cons.mpr hsave)
      have hstep : (bookmark.answer call).2.aside = bookmark.aside := by
        cases call with
        | next => rw [answer_next]
        | restart => rfl
        | save => exact absurd rfl hcall
        | load => rfl
      exact (ih hcalls).trans hstep

/-- What calls on a fresh scanner of a line come to. -/
structure Indexed (line : Text) (calls : List Call) : Prop where
  /-- The replies are those of two numbers that count the items of a fresh scan. -/
  replies_eq : ((ofLine line).answerAll calls).1 =
    (Place.start.answerAll (Scanner.ofLine line).items calls).1
  /-- These items are tokens and one last item, the end of the line or a rejection. -/
  items_eq : ∃ (tokens : List Token) (last : Item),
    (Scanner.ofLine line).items = tokens.map .ok ++ [last] ∧
    (∀ token ∈ tokens, token.kind ≠ .endOfInput) ∧ ∃ position, Ends line position last
  /-- After going back to the start of the line, everything is as in the first scan. -/
  restarted : ∀ later, .load ∉ later →
    (((ofLine line).answerAll (calls ++ [.restart])).2.answerAll later).1 =
      ((ofLine line).answerAll later).1
  /-- A scanner that was kept aside is found as it was, whatever was asked of the other
  one since. -/
  loaded : ∀ since, .save ∉ since →
    ((ofLine line).answerAll (calls ++ [.save] ++ since ++ [.load])).2.scanner =
      ((ofLine line).answerAll calls).2.scanner

/-- Whatever is asked of a scanner, it is a number into the items of its line. -/
theorem replies_indexed (line : Text) (calls : List Call) : Indexed line calls where
  replies_eq := ((At.new line).answerAll calls).1
  items_eq := Scanner.exists_items line
  restarted := by
    intro later hload
    refine replies_of_scanner_eq ?_ hload
    have hscanner := ((At.new line).answerAll calls).2.scanner_eq
    rw [after_concat, answer, hscanner, Scanner.restart_iterate]
    rfl
  loaded := by
    intro since hsave
    rw [after_concat, answer, answerAll_append, aside_answerAll hsave, after_concat, answer]

/-- A title is read again after going back, and the scanner kept aside before the end of
the line is not moved by the one that has reached it. -/
example :
    ((ofLine "#a".toList).answerAll [.save, .next, .next, .next, .load, .next, .restart, .next]).1
      = [.done, .item (some (.ok ⟨.title, .plain ['a'], 0, 2⟩)),
          .item (some (.ok ⟨.endOfInput, .nothing, 2, 2⟩)), .item none, .done,
          .item (some (.ok ⟨.title, .plain ['a'], 0, 2⟩)), .done,
          .item (some (.ok ⟨.title, .plain ['a'], 0, 2⟩))] :=
  rfl

end Bookmark

end ReceiptNotes.Markup
