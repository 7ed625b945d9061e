import ReceiptNotes.Session.Sink

/-! # What an output takes

Texts written one after the other are one text written. What overflows an output does so
whatever is written behind it, and what fits has been taken (`prefix_taken_of_fits`).
-/

namespace ReceiptNotes

namespace Sink

variable {out : Sink} {first second : Text}

theorem write_write : (out.write first).write second = out.write (first ++ second) := by
  simp only [write, Text.utf8_append, Sink.mk.injEq, true_and]
  apply Array.toList_inj.mp
  simp

@[simp]
theorem write_nil : out.write [] = out := by
  simp [write]

@[simp]
theorem limit_write : (out.write first).limit = out.limit := rfl

theorem offered_write :
    (out.write first).offered.toList = out.offered.toList ++ Text.utf8 first := by
  simp [write]

theorem size_offered_write (first : Text) :
    (out.write first).offered.size = out.offered.size + Text.byteLength first := by
  rw [← Array.length_toList, offered_write, List.length_append, Text.length_utf8,
    Array.length_toList]

theorem offered_prefix_write (out : Sink) (text : Text) :
    out.offered.toList <+: (out.write text).offered.toList := by
  rw [offered_write]
  exact List.prefix_append _ _

theorem offered_write_mono (out : Sink) (h : first <+: second) :
    (out.write first).offered.toList <+: (out.write second).offered.toList := by
  obtain ⟨behind, rfl⟩ := h
  rw [← write_write]
  exact offered_prefix_write _ behind

/-- What overflows an output still does so when more is written. -/
theorem overflowed_write_of_prefix (hfront : first <+: second)
    (h : (out.write first).overflowed = true) : (out.write second).overflowed = true := by
  obtain ⟨behind, rfl⟩ := hfront
  rw [← write_write]
  cases hlimit : out.limit with
  | none => simp [overflowed, hlimit] at h
  | some limit =>
      simp only [overflowed, limit_write, hlimit, decide_eq_true_eq] at h ⊢
      apply Nat.lt_of_lt_of_le h
      rw [size_offered_write behind]
      exact Nat.le_add_right _ _

theorem fits_of_prefix (hfront : first <+: second)
    (h : (out.write second).overflowed = false) : (out.write first).overflowed = false := by
  cases hover : (out.write first).overflowed with
  | false => rfl
  | true =>
      have hlonger := overflowed_write_of_prefix hfront hover
      rw [hlonger] at h
      contradiction

theorem overflowed_of_limit_none (h : out.limit = none) : out.overflowed = false := by
  rw [overflowed, h]

theorem fits_iff (limit : Option Nat) :
    ((ofLimit limit).write first).overflowed = false ↔
      ∀ room ∈ limit, Text.byteLength first ≤ room := by
  cases limit with
  | none => exact ⟨fun _ => by simp, fun _ => overflowed_of_limit_none rfl⟩
  | some room =>
      rw [overflowed, limit_write]
      simp only [ofLimit, size_offered_write]
      simp

theorem overflowed_write_ofLimit (limit : Nat) :
    ((ofLimit (some limit)).write first).overflowed =
      decide (limit < (Text.utf8 first).length) := by
  rw [overflowed, limit_write]
  simp only [ofLimit, size_offered_write, Text.length_utf8]
  simp

theorem taken_write_ofLimit (limit : Option Nat) :
    ((ofLimit limit).write first).taken =
      match limit with
      | none => Text.utf8 first
      | some room => (Text.utf8 first).take room := by
  rw [taken, limit_write, offered_write]
  cases limit with
  | none => rfl
  | some room => rfl

/-- What fits on an output has been taken by it, whatever is written behind it. -/
theorem prefix_taken_of_fits {limit : Option Nat} (hfront : first <+: second)
    (h : ((ofLimit limit).write first).overflowed = false) :
    Text.utf8 first <+: ((ofLimit limit).write second).taken := by
  obtain ⟨behind, rfl⟩ := hfront
  rw [taken_write_ofLimit, Text.utf8_append]
  cases limit with
  | none => exact List.prefix_append _ _
  | some room =>
      have hroom := (fits_iff (some room)).mp h room rfl
      rw [← Text.length_utf8] at hroom
      simp only [List.take_append, List.take_of_length_le hroom]
      exact List.prefix_append _ _

theorem fits_of_prefix_taken {limit : Option Nat}
    (h : Text.utf8 first <+: ((ofLimit limit).write second).taken) :
    ((ofLimit limit).write first).overflowed = false := by
  rw [fits_iff]
  rintro room rfl
  have hle := h.length_le
  rw [taken_write_ofLimit, List.length_take, Text.length_utf8] at hle
  exact Nat.le_trans hle (Nat.min_le_left _ _)

end Sink

end ReceiptNotes
