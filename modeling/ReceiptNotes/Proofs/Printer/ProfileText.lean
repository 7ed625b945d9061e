import ReceiptNotes.Proofs.Json.Writing
import ReceiptNotes.Proofs.Printer.Patch

/-! # Profiles written and read back

A profile that has been written is loaded as it was, if it is usable, and otherwise as the
fault that it is not. What has been loaded is usable, so it survives being written and
loaded again (`Profile.load_toJsonText`).
-/

namespace ReceiptNotes

open Json (Written)

variable {profile : Profile}

namespace ProfileField

theorem quoted_key (field : ProfileField) :
    Json.quoted field.key = ['"'] ++ field.key ++ ['"'] := by
  cases field <;> decide

/-- The value of a field is written as the JSON value that it is. -/
theorem written_write (profile : Profile) (field : ProfileField) :
    Written (.spaced (field.json (profile.get field))) (field.write profile) := by
  apply Written.compact
  cases field with
  | name => exact .string (Json.writtenString_quoted profile.name)
  | _ => exact .number (Json.writtenNumber_decimal _)

end ProfileField

namespace Profile

/-- All fields with their values. -/
def settings (profile : Profile) : List Member :=
  ProfileField.all.map fun field => .setting field (profile.get field)

theorem gives_settings (profile : Profile) :
    Gives profile.settings fun field => some (profile.get field) where
  once := (by decide : ProfileField.all.Nodup)
  mem_iff field value := by simp [settings, ProfileField.mem_all]

/-- A profile is written as the object of its settings. -/
theorem written_toJsonText (profile : Profile) :
    Written (.spaced (.object (profile.settings.map Member.toJson))) profile.toJsonText := by
  have hmembers := Json.written_intercalate
    (fun field => Json.writtenKey_quoted (ProfileField.key field))
    (ProfileField.written_write profile) (by decide : ProfileField.all ≠ [])
  simpa [settings, toJsonText, ProfileField.quoted_key, Member.toJson, Function.comp_def]
    using (Written.object hmembers).compact

theorem ofJson?_settings (profile : Profile) :
    ofJson? (.object (profile.settings.map Member.toJson)) = some profile :=
  withMembers?_toJson (gives_settings profile) [] (by simp)

theorem load_written (complaint : Text → Text) (path : Text) (profile : Profile) :
    load complaint path (.ok (Text.utf8 profile.toJsonText)) = profile.validated :=
  load_utf8 complaint path profile.written_toJsonText profile.ofJson?_settings

/-! ## Usable profiles -/

theorem flaw?_eq_none_iff :
    profile.flaw? = none ↔ 1 ≤ profile.columns ∧ 1 ≤ profile.qrCellSize ∧
      profile.qrCellSize ≤ 8 ∧ profile.pdf417EccLevel ≤ 8 := by
  grind [flaw?]

/-- Only usable profiles are loaded. -/
theorem flaw?_of_load {complaint : Text → Text} {path : Text} {content : Except FileFault Bytes}
    (h : load complaint path content = .ok profile) : profile.flaw? = none := by
  unfold load at h
  split at h
  · simp at h
  split at h
  · simp at h
  split at h
  · simp at h
  next read _ =>
      split at h
      · simp at h
      next husable =>
          obtain rfl := Except.ok.inj h
          exact husable

/-- A profile survives being written and read back: it is loaded as it was if it is usable,
and otherwise as its fault. So whatever is loaded is usable, and writing it and loading it
again changes nothing. -/
theorem load_toJsonText (complaint : Text → Text) :
    (∀ (path : Text) (profile : Profile),
      load complaint path (.ok (Text.utf8 profile.toJsonText)) = profile.validated) ∧
      ∀ (path : Text) (content : Except FileFault Bytes) (profile : Profile),
        load complaint path content = .ok profile →
        1 ≤ profile.columns ∧ (1 ≤ profile.qrCellSize ∧ profile.qrCellSize ≤ 8) ∧
          profile.pdf417EccLevel ≤ 8 ∧
          ∀ saved, load complaint saved (.ok (Text.utf8 profile.toJsonText)) = .ok profile := by
  refine ⟨load_written complaint, fun path content profile h => ?_⟩
  have husable := flaw?_of_load h
  obtain ⟨hcolumns, hleast, hmost, hlevel⟩ := flaw?_eq_none_iff.mp husable
  refine ⟨hcolumns, ⟨hleast, hmost⟩, hlevel, fun saved => ?_⟩
  rw [load_written, validated, husable]

end Profile

end ReceiptNotes
