import ReceiptNotes.Fault
import ReceiptNotes.Json.Quoted
import ReceiptNotes.Json.Reader

/-! # Profile files

A profile is kept as a JSON file. An object gives fields by name in any order; a list
gives them in their own order and may stop early. Fields that are not given have
their value from the default profile, and members of other names are skipped. A field
that is given twice, or with a value that it cannot hold, makes the file unreadable.
-/

namespace ReceiptNotes

inductive ProfileField where
  | name
  | columns
  | qrCellSize
  | barcodeHeight
  | pdf417ModuleWidth
  | pdf417EccLevel
  deriving DecidableEq, Repr

namespace ProfileField

def all : List ProfileField :=
  [name, columns, qrCellSize, barcodeHeight, pdf417ModuleWidth, pdf417EccLevel]

def key : ProfileField → Text
  | name => "name".toList
  | columns => "columns".toList
  | qrCellSize => "qr_cell_size".toList
  | barcodeHeight => "barcode_height".toList
  | pdf417ModuleWidth => "pdf417_module_width".toList
  | pdf417EccLevel => "pdf417_ecc_level".toList

def ofKey? (key : Text) : Option ProfileField :=
  all.find? fun field => field.key = key

/-- A number below `bound`. Only a row of digits writes such a number. -/
def natural? (bound : Nat) : Json → Option Nat
  | .number literal => (Text.decimalValue? literal).filter (· < bound)
  | _ => none

def byte? (value : Json) : Option UInt8 :=
  (natural? 0x100 value).map UInt8.ofNat

def text? : Json → Option Text
  | .string content => content
  | _ => none

def set? (field : ProfileField) (value : Json) (profile : Profile) : Option Profile :=
  match field with
  | name => (text? value).map fun name => { profile with name }
  | columns =>
      (natural? UInt64.size value).map fun n => { profile with columns := UInt64.ofNat n }
  | qrCellSize => (byte? value).map fun qrCellSize => { profile with qrCellSize }
  | barcodeHeight => (byte? value).map fun barcodeHeight => { profile with barcodeHeight }
  | pdf417ModuleWidth =>
      (byte? value).map fun pdf417ModuleWidth => { profile with pdf417ModuleWidth }
  | pdf417EccLevel => (byte? value).map fun pdf417EccLevel => { profile with pdf417EccLevel }

def write (profile : Profile) : ProfileField → Text
  | name => Json.quoted profile.name
  | columns => Text.decimal profile.columns.toNat
  | qrCellSize => Text.decimal profile.qrCellSize.toNat
  | barcodeHeight => Text.decimal profile.barcodeHeight.toNat
  | pdf417ModuleWidth => Text.decimal profile.pdf417ModuleWidth.toNat
  | pdf417EccLevel => Text.decimal profile.pdf417EccLevel.toNat

end ProfileField

namespace Profile

/-- The profile with the fields that some members give, apart from the `given` ones. -/
def withMembers? (profile : Profile) (given : List ProfileField) :
    List (Json.Content × Json) → Option Profile
  | [] => some profile
  | (none, _) :: _ => none
  | (some key, value) :: members =>
      match ProfileField.ofKey? key with
      | none => profile.withMembers? given members
      | some field =>
          if field ∈ given then none
          else
            match field.set? value profile with
            | none => none
            | some profile => profile.withMembers? (field :: given) members

/-- The profile with values for the first ones of some fields. -/
def withItems? (profile : Profile) : List ProfileField → List Json → Option Profile
  | _, [] => some profile
  | [], _ :: _ => none
  | field :: fields, value :: values =>
      match field.set? value profile with
      | none => none
      | some profile => profile.withItems? fields values

def ofJson? : Json → Option Profile
  | .object members => default.withMembers? [] members
  | .array items => default.withItems? ProfileField.all items
  | _ => none

/-- The usable profile in the file at `path`, which could be opened, or not. The reader
has a `complaint` of every text that is no profile. -/
def load (complaint : Text → Text) (path : Text) (content : Except FileFault Bytes) :
    Except Fault Profile :=
  match content with
  | .error cause => .error (.io (.file cause))
  | .ok bytes =>
      match Text.ofUtf8? bytes with
      | none => .error (.io .malformedStream)
      | some text =>
          match (Json.ofText? text).bind ofJson? with
          | none => .error (.configuration (.unreadable path (complaint text)))
          | some profile =>
              match profile.flaw? with
              | some flaw => .error (.configuration (.flaw flaw))
              | none => .ok profile

/-- A profile as a JSON object, without spaces. -/
def toJsonText (profile : Profile) : Text :=
  ['\x7b'] ++
    [','].intercalate (ProfileField.all.map fun field =>
      ['"'] ++ field.key ++ ['"', ':'] ++ field.write profile) ++
    ['\x7d']

end Profile

end ReceiptNotes
