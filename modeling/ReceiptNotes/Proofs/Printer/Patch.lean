import Mathlib.Logic.Function.Basic
import ReceiptNotes.Printer.ProfileFile
import ReceiptNotes.Proofs.Json.Reading
import ReceiptNotes.Proofs.Json.Writing
import ReceiptNotes.Proofs.Text.Utf8

/-! # The profile that a file gives

The members of an object give values to some of the fields of a profile: they are a patch
of the default profile (`Profile.Gives`). Whatever the order of the members, the whitespace
between them and the members of other names, a file with them is loaded as the patched
profile, if this one is usable (`Profile.load_layout`).
-/

namespace ReceiptNotes

open Json (Blank Written WrittenUnits blank_nil writtenKey_quoted writtenNumber_decimal)

/-! ## Fields -/

namespace ProfileField

/-- What a field holds. -/
abbrev Value : ProfileField → Type
  | name => Text
  | columns => UInt64
  | qrCellSize | barcodeHeight | pdf417ModuleWidth | pdf417EccLevel => UInt8

/-- The value of a field as a JSON value. -/
def json : (field : ProfileField) → field.Value → Json
  | name, value => .string (some value)
  | columns, value => .number (Text.decimal value.toNat)
  | qrCellSize, value | barcodeHeight, value | pdf417ModuleWidth, value
  | pdf417EccLevel, value => .number (Text.decimal value.toNat)

theorem mem_all (field : ProfileField) : field ∈ all := by
  cases field <;> decide

@[simp]
theorem ofKey?_key (field : ProfileField) : ofKey? field.key = some field := by
  cases field <;> decide

theorem ofKey?_eq_none_iff {label : Text} :
    ofKey? label = none ↔ ∀ field : ProfileField, field.key ≠ label := by
  simp [ofKey?, mem_all]

end ProfileField

namespace Profile

def get (profile : Profile) : (field : ProfileField) → field.Value
  | .name => profile.name
  | .columns => profile.columns
  | .qrCellSize => profile.qrCellSize
  | .barcodeHeight => profile.barcodeHeight
  | .pdf417ModuleWidth => profile.pdf417ModuleWidth
  | .pdf417EccLevel => profile.pdf417EccLevel

/-- The profile with some values in its fields. -/
def ofValues (values : (field : ProfileField) → field.Value) : Profile where
  name := values .name
  columns := values .columns
  qrCellSize := values .qrCellSize
  barcodeHeight := values .barcodeHeight
  pdf417ModuleWidth := values .pdf417ModuleWidth
  pdf417EccLevel := values .pdf417EccLevel

@[simp]
theorem ofValues_get (profile : Profile) : ofValues profile.get = profile :=
  rfl

@[simp]
theorem get_ofValues (values : (field : ProfileField) → field.Value) :
    (ofValues values).get = values := by
  funext field
  cases field <;> rfl

end Profile

namespace ProfileField

theorem natural?_decimal {n bound : ℕ} (h : n < bound) :
    natural? bound (.number (Text.decimal n)) = some n := by
  simp [natural?, h]

theorem byte?_decimal (value : UInt8) :
    byte? (.number (Text.decimal value.toNat)) = some value := by
  rw [byte?, natural?_decimal value.toNat_lt]
  simp

/-- A field takes its own values, and the other fields keep theirs. -/
theorem set?_json (field : ProfileField) (value : field.Value) (profile : Profile) :
    field.set? (field.json value) profile =
      some (.ofValues (Function.update profile.get field value)) := by
  cases field with
  | name => rfl
  | columns =>
      rw [set?, json, natural?_decimal value.toNat_lt]
      simp [Profile.ofValues, Profile.get]
  | _ =>
      rw [set?, json, byte?_decimal]
      rfl

end ProfileField

/-! ## Members -/

namespace Profile

/-- Values for some of the fields. -/
abbrev Patch : Type :=
  (field : ProfileField) → Option field.Value

/-- The profile with the fields replaced for which there are values. -/
def patched (profile : Profile) (patch : Patch) : Profile :=
  ofValues fun field => (patch field).getD (profile.get field)

/-- A member of an object: a field with a value for it, or a name that no field has, with
any JSON value. The name is a text, so surrogates in it have their partners. -/
inductive Member where
  | setting (field : ProfileField) (value : field.Value)
  | other (label : Text) (value : Json) (hlabel : ∀ field : ProfileField, field.key ≠ label)

def Member.field? : Member → Option ProfileField
  | setting field _ => some field
  | other .. => none

def Member.toJson : Member → Json.Content × Json
  | setting field value => (some field.key, field.json value)
  | other label value _ => (some label, value)

/-- Members give the values of a patch, each of them once, and no others. -/
structure Gives (members : List Member) (patch : Patch) : Prop where
  once : (members.filterMap Member.field?).Nodup
  mem_iff : ∀ field value, .setting field value ∈ members ↔ patch field = some value

variable {patch : Patch} {members : List Member} {profile : Profile}

theorem Gives.eq_none (h : Gives [] patch) (field : ProfileField) : patch field = none := by
  rw [Option.eq_none_iff_forall_ne_some]
  intro value hvalue
  simpa using (h.mem_iff field value).mpr hvalue

theorem Gives.of_other {label : Text} {value : Json}
    {hlabel : ∀ field : ProfileField, field.key ≠ label}
    (h : Gives (.other label value hlabel :: members) patch) : Gives members patch where
  once := h.once
  mem_iff field value := by simp [← h.mem_iff]

/-- Behind a member for a field, the members give the other values of the patch. -/
theorem Gives.of_setting {field : ProfileField} {value : field.Value}
    (h : Gives (.setting field value :: members) patch) :
    Gives members (Function.update patch field none) where
  once := (List.nodup_cons.mp h.once).2
  mem_iff other otherValue := by
    by_cases heq : other = field
    · subst heq
      have hnot : other ∉ members.filterMap Member.field? := (List.nodup_cons.mp h.once).1
      simp only [Function.update_self, reduceCtorEq, iff_false]
      exact fun hmem => hnot (List.mem_filterMap.mpr ⟨_, hmem, rfl⟩)
    · rw [Function.update_of_ne heq, ← h.mem_iff]
      simp [heq]

/-- Patching with a value first, and with the others behind it. -/
theorem patched_update {field : ProfileField} {value : field.Value}
    (h : patch field = some value) :
    (ofValues (Function.update profile.get field value)).patched
      (Function.update patch field none) = profile.patched patch := by
  rw [patched, patched, get_ofValues]
  congr 1
  funext other
  by_cases heq : other = field
  · subst heq
    simp [h]
  · simp [heq]

/-- Members are taken one by one, and what is left of the patch is given by the others. -/
theorem withMembers?_toJson (h : Gives members patch) (given : List ProfileField)
    (hgiven : ∀ field ∈ given, patch field = none) :
    profile.withMembers? given (members.map Member.toJson) = some (profile.patched patch) := by
  induction members generalizing profile patch given with
  | nil => simp [withMembers?, patched, h.eq_none]
  | cons member members ih =>
      cases member with
      | other label value hlabel =>
          rw [List.map_cons, Member.toJson, withMembers?,
            ProfileField.ofKey?_eq_none_iff.mpr hlabel]
          exact ih h.of_other given hgiven
      | setting field value =>
          have hpatch : patch field = some value := (h.mem_iff field value).mp List.mem_cons_self
          have hnot : field ∉ given := by
            intro hmem
            simp [hgiven field hmem] at hpatch
          rw [List.map_cons, Member.toJson, withMembers?, ProfileField.ofKey?_key]
          simp only [if_neg hnot, ProfileField.set?_json]
          rw [ih h.of_setting, patched_update hpatch]
          intro other hother
          by_cases heq : other = field
          · subst heq
            simp
          · rw [Function.update_of_ne heq]
            exact hgiven other (List.mem_of_ne_of_mem heq hother)

/-! ## Files -/

/-- The profile itself if it is usable, and otherwise the fault that it is not. -/
def validated (profile : Profile) : Except Fault Profile :=
  match profile.flaw? with
  | some flaw => .error (.configuration (.flaw flaw))
  | none => .ok profile

theorem load_utf8 {json : Json} {text : Text} (complaint : Text → Text) (path : Text)
    (h : Written (.spaced json) text) (hjson : ofJson? json = some profile) :
    load complaint path (.ok (Text.utf8 text)) = profile.validated := by
  simp only [load, Text.ofUtf8?_utf8, Json.ofText?_written h, Option.bind_some, hjson]
  rfl

/-- What a file means does not depend on its layout: with whatever order of the members,
whitespace, spelling of the strings, and members of other names with any values, it is
loaded as the default profile with just the given fields replaced, if this is usable, and
otherwise as the fault of this profile. -/
theorem load_layout (complaint : Text → Text) (path : Text) (patch : Patch)
    (members : List Member) (text : Text) (hgives : Gives members patch)
    (htext : Written (.spaced (.object (members.map Member.toJson))) text) :
    load complaint path (.ok (Text.utf8 text)) = (default.patched patch).validated :=
  load_utf8 complaint path htext (withMembers?_toJson hgives [] (by simp))

/-- The skipped member has a bracket in its key, and a surrogate without its partner in its
value. -/
theorem load_layout_skipping :
    load (fun _ => "not a profile".toList) "kitchen.json".toList (.ok (Text.utf8
      "\x7b\"name\": \"K\\u00fc\",\"]\":[\"\\ud800]\"],\"columns\":42\n\x7d".toList)) =
      .ok { default with name := "Kü".toList, columns := 42 } := by
  have hname : WrittenUnits [.char 'K', .code 0xFC] ['K', '\\', 'u', '0', '0', 'f', 'c'] :=
    .plain (by decide) (by decide) (by decide) (.code rfl .nil)
  have hlone : WrittenUnits [.code 0xD800, .char ']'] ['\\', 'u', 'd', '8', '0', '0', ']'] :=
    .code rfl (.plain (by decide) (by decide) (by decide) .nil)
  have hskipped := Written.array (.lastItem (Written.string hlone.writtenString).compact)
  have hcolumns := Written.spaced blank_nil (Written.number (writtenNumber_decimal 42))
    (by decide : Blank ['\n'])
  have hspaced := Written.spaced (by decide : Blank [' ']) (.string hname.writtenString) blank_nil
  have hobject := Written.object
    (.member (writtenKey_quoted "name".toList) hspaced
      (.member (writtenKey_quoted "]".toList) hskipped.compact
        (.lastMember (writtenKey_quoted "columns".toList) hcolumns)))
  have hgives : Gives
      [.setting .name "Kü".toList,
        .other "]".toList (.array [.string none]) (by rintro (_ | _) <;> decide),
        .setting .columns (42 : UInt64)]
      fun | .name => some "Kü".toList | .columns => some (42 : UInt64) | _ => none := by
    refine ⟨by decide, fun field value => ?_⟩
    cases field <;> simp [eq_comm]
  exact load_layout _ _ _ _ _ hgives hobject.compact

end Profile

end ReceiptNotes
