import ReceiptNotes.Text.Basic

/-! # JSON values

The values of the JSON data format as they are written: numbers keep their literal,
and members keep their order.
-/

namespace ReceiptNotes

/-- The content of a JSON string. It is absent if escapes in the string hold a
surrogate without its partner: such a string may be written, but it is no text. -/
abbrev Json.Content := Option Text

inductive Json where
  | null
  | bool (value : Bool)
  | number (literal : Text)
  | string (content : Json.Content)
  | array (items : List Json)
  | object (members : List (Json.Content × Json))

end ReceiptNotes
