import Mathlib.Algebra.GroupWithZero.Nat
import Mathlib.Data.List.Infix
import ReceiptNotes.Session.Input

/-! # What is heard of an operator who cancels

A prompt looks for a cancellation before it looks at the input, and again each time
it goes on waiting. If the look that finds it comes before the input has ended, what
is heard is what had been delivered before that look (`Input.hear_of_impatient`).
-/

namespace ReceiptNotes

namespace Arrival

/-- How many times a prompt looks for a cancellation until an item is there. -/
def looks : Arrival → Nat
  | .line _ waits => waits + 1
  | .broken _ => 1

/-- The items that are delivered before a prompt looks for a cancellation for the
`look`-th time. -/
def before : (look : Nat) → List Arrival → List Arrival
  | _, [] => []
  | look, arrival :: later =>
      if arrival.looks < look then arrival :: before (look - arrival.looks) later else []

variable {look : Nat} {arrivals longer : List Arrival}

theorem looks_lt_of_prefix_before {items : List Arrival} (h : 0 < look)
    (hitems : items <+: before look arrivals) : (items.map looks).sum < look := by
  induction arrivals generalizing look items with
  | nil =>
      obtain rfl := List.prefix_nil.mp hitems
      simpa using h
  | cons arrival later ih =>
      rw [before] at hitems
      split at hitems
      next hbefore =>
          cases items with
          | nil => simpa using h
          | cons first items =>
              obtain ⟨rfl, hbehind⟩ := List.cons_prefix_cons.mp hitems
              have hlater := ih (by omega) hbehind
              simp only [List.map_cons, List.sum_cons]
              omega
      · obtain rfl := List.prefix_nil.mp hitems
        simpa using h

/-- No more items than these are there in time. -/
theorem prefix_before (hlonger : longer <+: arrivals) (h : (longer.map looks).sum < look) :
    longer <+: before look arrivals := by
  induction arrivals generalizing look longer with
  | nil => rwa [before]
  | cons arrival later ih =>
      cases longer with
      | nil => exact List.nil_prefix
      | cons first longer =>
          obtain ⟨rfl, hbehind⟩ := List.cons_prefix_cons.mp hlonger
          simp only [List.map_cons, List.sum_cons] at h
          rw [before, if_pos (by omega)]
          exact (List.prefix_cons_inj first).mpr (ih hbehind (by omega))

end Arrival

namespace Input

/-- How many times an operator who never cancels is looked for while some arrivals
are heard to their end. -/
def looks : List Arrival → Nat
  | .line text waits :: later => (Arrival.line text waits).looks + looks later
  | _ => 1

variable {arrivals : List Arrival}

theorem hear_line (patience : Nat) (text : Text) (waits : Nat) (later : List Arrival) :
    hear (some patience) (.line text waits :: later) =
      if patience < waits + 1 then ofEnding .cancelled
      else (hear (some (patience - (waits + 1))) later).cons text := by
  cases patience with
  | zero => simp [hear]
  | succ patience => rw [hear]; simp

section Look

variable {patience : Option Nat} (h : ∀ left ∈ patience, 0 < left)

include h

/-! One look that finds nothing goes on to what there is on the input. -/

theorem hear_nil : hear patience [] = ofEnding .closed := by
  cases patience with
  | none => rfl
  | some left =>
      obtain ⟨less, rfl⟩ := Nat.exists_eq_add_one.mpr (h left rfl)
      rfl

theorem hear_broken (cause : IoFault) (later : List Arrival) :
    hear patience (.broken cause :: later) = ofEnding (.broken cause) := by
  cases patience with
  | none => rfl
  | some left =>
      obtain ⟨less, rfl⟩ := Nat.exists_eq_add_one.mpr (h left rfl)
      rfl

theorem hear_present (text : Text) (later : List Arrival) :
    hear patience (.line text 0 :: later) = (hear (patience.map (· - 1)) later).cons text := by
  cases patience with
  | none => rfl
  | some left =>
      have hleft := h left rfl
      rw [hear_line, if_neg (by omega)]
      rfl

theorem hear_awaited (text : Text) (waits : Nat) (later : List Arrival) :
    hear patience (.line text (waits + 1) :: later) =
      hear (patience.map (· - 1)) (.line text waits :: later) := by
  cases patience with
  | none => rfl
  | some left =>
      obtain ⟨less, rfl⟩ := Nat.exists_eq_add_one.mpr (h left rfl)
      rw [hear_line, Option.map_some, Nat.add_sub_cancel, hear_line, Nat.add_sub_add_right]
      simp only [Nat.add_lt_add_iff_right]

end Look

/-- An operator who loses patience before the input has ended has been heard as if the
input had been closed behind the last item that was there in time. -/
theorem hear_of_impatient {patience : Nat} (h : patience < looks arrivals) :
    ∃ lines, hear (some patience) arrivals = ⟨lines, .cancelled⟩ ∧
      hear none (Arrival.before (patience + 1) arrivals) = ⟨lines, .closed⟩ := by
  induction arrivals generalizing patience with
  | nil =>
      obtain rfl : patience = 0 := by simpa [looks] using h
      exact ⟨[], rfl, rfl⟩
  | cons arrival later ih =>
      cases arrival with
      | broken cause =>
          obtain rfl : patience = 0 := by simpa [looks] using h
          exact ⟨[], rfl, rfl⟩
      | line text waits =>
          rw [looks, Arrival.looks] at h
          rw [hear_line, Arrival.before, Arrival.looks]
          by_cases hearly : patience < waits + 1
          · rw [if_pos hearly, if_neg (by omega)]
            exact ⟨[], rfl, rfl⟩
          · rw [if_neg hearly, if_pos (by omega)]
            obtain ⟨lines, hcancelled, hclosed⟩ :=
              @ih (patience - (waits + 1)) (by omega)
            rw [show patience - (waits + 1) + 1 = patience + 1 - (waits + 1) by omega] at hclosed
            exact ⟨text :: lines, by rw [hcancelled]; rfl, by rw [hear, hclosed]; rfl⟩

theorem lines_hear_prefix (patience : Nat) (arrivals : List Arrival) :
    (hear (some patience) arrivals).lines <+: (hear none arrivals).lines := by
  induction arrivals generalizing patience with
  | nil => cases patience <;> exact List.nil_prefix
  | cons arrival later ih =>
      cases arrival with
      | broken cause => cases patience <;> exact List.nil_prefix
      | line text waits =>
          rw [hear_line]
          split
          · exact List.nil_prefix
          · exact (List.prefix_cons_inj text).mpr (ih _)

/-- Nothing behind a read error is heard. -/
theorem hear_append_broken (patience : Option Nat) (front : List Arrival) (cause : IoFault)
    (behind : List Arrival) :
    hear patience (front ++ .broken cause :: behind) =
      hear patience (front ++ [.broken cause]) := by
  induction front generalizing patience with
  | nil => rcases patience with _ | _ | left <;> rfl
  | cons arrival front ih =>
      cases arrival with
      | broken first => rcases patience with _ | _ | left <;> rfl
      | line text waits =>
          cases patience with
          | none => rw [List.cons_append, List.cons_append, hear, hear, ih]
          | some left => rw [List.cons_append, List.cons_append, hear_line, hear_line, ih]

/-- Lines and how many times each has to be waited for, as what arrives. -/
def ofLines (lines : List (Text × Nat)) : List Arrival :=
  lines.map fun (text, waits) => .line text waits

theorem ofLines_cons (line : Text × Nat) (lines : List (Text × Nat)) :
    ofLines (line :: lines) = .line line.1 line.2 :: ofLines lines := rfl

/-- Lines none of which has to be waited for. -/
def present (lines : List Text) : List Arrival :=
  ofLines (lines.map fun line => (line, 0))

theorem present_cons (line : Text) (lines : List Text) :
    present (line :: lines) = .line line 0 :: present lines := rfl

theorem sum_looks_present (lines : List Text) :
    ((present lines).map Arrival.looks).sum = lines.length := by
  induction lines with
  | nil => rfl
  | cons line lines ih =>
      rw [present_cons, List.map_cons, List.sum_cons, ih, Arrival.looks, List.length_cons]
      omega

theorem hear_ofLines_append (lines : List (Text × Nat)) (later : List Arrival) :
    hear none (ofLines lines ++ later) =
      ⟨lines.map Prod.fst ++ (hear none later).lines, (hear none later).ending⟩ := by
  induction lines with
  | nil => rfl
  | cons line lines ih =>
      rw [ofLines_cons, List.cons_append, hear, ih]
      rfl

/-- A read error is heard by an operator who is patient enough for the lines before it. -/
theorem hear_ofLines_of_patient {patience : Option Nat} {lines : List (Text × Nat)}
    (h : ∀ left ∈ patience, ((ofLines lines).map Arrival.looks).sum < left) (cause : IoFault)
    (later : List Arrival) :
    hear patience (ofLines lines ++ .broken cause :: later) =
      ⟨lines.map Prod.fst, .broken cause⟩ := by
  cases patience with
  | none =>
      rw [hear_ofLines_append]
      simp [hear, ofEnding]
  | some left =>
      have hleft := h left rfl
      clear h
      induction lines generalizing left with
      | nil => exact hear_broken (by simpa [ofLines] using hleft) cause later
      | cons line lines ih =>
          rw [ofLines_cons, List.map_cons, List.sum_cons, Arrival.looks] at hleft
          rw [ofLines_cons, List.cons_append, hear_line, if_neg (by omega), ih _ (by omega)]
          rfl

/-- An operator who loses patience before some lines have come does not hear what is behind
them. -/
theorem hear_ofLines_of_impatient {left : Nat} {lines : List (Text × Nat)}
    (h : left ≤ ((ofLines lines).map Arrival.looks).sum) (later : List Arrival) :
    hear (some left) (ofLines lines ++ later) = hear (some left) (ofLines lines) := by
  induction lines generalizing left with
  | nil =>
      obtain rfl : left = 0 := by simpa [ofLines] using h
      cases later <;> rfl
  | cons line lines ih =>
      rw [ofLines_cons, List.map_cons, List.sum_cons, Arrival.looks] at h
      rw [ofLines_cons, List.cons_append, hear_line, hear_line]
      split
      · rfl
      · rw [ih (by omega)]

end Input

end ReceiptNotes
