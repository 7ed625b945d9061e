import ReceiptNotes.Text.Basic

/-! # Patterns

The building block of the greedy markup rules: it takes the longest stretch off the
front of a text that stays on its line and leaves something acceptable behind. The
stretch and the remainder put together are the text again (`longest?_eq`).
-/

namespace ReceiptNotes.Markup

variable {α : Type}

/-- The longest front part of `text` on its first line, perhaps empty, after which
`accept` succeeds, and what `accept` made of the remainder. -/
def longestOrEmpty? (accept : Text → Option α) : Text → Option (Text × α)
  | [] => (accept []).map fun a => ([], a)
  | c :: text =>
      match if c = '\n' then none else longestOrEmpty? accept text with
      | some (taken, a) => some (c :: taken, a)
      | none => (accept (c :: text)).map fun a => ([], a)

/-- `longestOrEmpty?` for a front part of at least one character. -/
def longest? (accept : Text → Option α) : Text → Option (Text × α)
  | [] => none
  | c :: text =>
      if c = '\n' then none
      else (longestOrEmpty? accept text).map fun (taken, a) => (c :: taken, a)

theorem longestOrEmpty?_eq {accept : Text → Option α} {text taken : Text} {a : α}
    (h : longestOrEmpty? accept text = some (taken, a)) :
    ∃ rest, text = taken ++ rest ∧ accept rest = some a ∧ '\n' ∉ taken := by
  induction text generalizing taken with
  | nil =>
      simp only [longestOrEmpty?, Option.map_eq_some_iff, Prod.mk.injEq] at h
      obtain ⟨_, haccept, rfl, rfl⟩ := h
      exact ⟨[], rfl, haccept, List.not_mem_nil⟩
  | cons c text ih =>
      simp only [longestOrEmpty?] at h
      split at h
      next later b hlater =>
          split at hlater
          · simp at hlater
          next hc =>
              simp only [Option.some.injEq, Prod.mk.injEq] at h
              obtain ⟨rfl, rfl⟩ := h
              obtain ⟨rest, rfl, haccept, hline⟩ := ih hlater
              refine ⟨rest, rfl, haccept, ?_⟩
              simp [hline, Ne.symm hc]
      next =>
          simp only [Option.map_eq_some_iff, Prod.mk.injEq] at h
          obtain ⟨_, haccept, rfl, rfl⟩ := h
          exact ⟨c :: text, rfl, haccept, List.not_mem_nil⟩

/-- What `longest?` takes is not empty, stays on its line and leaves a remainder
that is accepted. -/
theorem longest?_eq {accept : Text → Option α} {text taken : Text} {a : α}
    (h : longest? accept text = some (taken, a)) :
    taken ≠ [] ∧ '\n' ∉ taken ∧ ∃ rest, text = taken ++ rest ∧ accept rest = some a := by
  cases text with
  | nil => simp [longest?] at h
  | cons c text =>
      simp only [longest?] at h
      split at h
      · simp at h
      next hc =>
          simp only [Option.map_eq_some_iff, Prod.mk.injEq, Prod.exists] at h
          obtain ⟨later, b, hlater, rfl, rfl⟩ := h
          obtain ⟨rest, rfl, haccept, hline⟩ := longestOrEmpty?_eq hlater
          exact ⟨by simp, by simp [hline, Ne.symm hc], rest, rfl, haccept⟩

end ReceiptNotes.Markup
