import Mathlib.Data.List.DropRight
import Mathlib.Data.List.Infix
import Mathlib.Data.List.Sublists
import ReceiptNotes.Note.Basic
import ReceiptNotes.Note.Body

/-! # Cutting lines into notes

Lines that an operator types are cut into notes before anything is printed: a note
is one subject line and the shortest stretch of lines behind it that ends a body.
What is left when no stretch ends a body belongs to a note that is never finished.
No line is lost, moved or used twice (`lines_ofLines`).
-/

namespace ReceiptNotes

/-- Lines that end a body: at least three of them, the last two of which are
blank. -/
def EndsBody (lines : List Text) : Prop :=
  3 ≤ lines.length ∧ ∀ line ∈ lines.drop (lines.length - 2), Text.isBlankLine line

instance : DecidablePred EndsBody := fun _ => inferInstanceAs (Decidable (_ ∧ _))

structure Draft where
  subject : Text
  /-- All lines of the body, those among them that end it. -/
  body : List Text
  deriving DecidableEq, Repr

namespace Draft

def lines (draft : Draft) : List Text :=
  draft.subject :: draft.body

/-- The note that a draft stands for when it is finished at some moment. The blank
lines at the end of its body are left out. -/
def note (draft : Draft) (moment : Timestamp) : Note where
  subject := draft.subject
  moment
  body := draft.body.rdropWhile Text.isBlankLine

/-- The body ends with its last line and no earlier one. -/
structure Finished (draft : Draft) : Prop where
  ends : EndsBody draft.body
  shortest : ∀ shorter, shorter <+: draft.body → shorter ≠ draft.body → ¬ EndsBody shorter

end Draft

structure Segmentation where
  drafts : List Draft
  unfinished : List Text
  deriving DecidableEq, Repr

namespace Segmentation

def ofLines : List Text → Segmentation
  | [] => ⟨[], []⟩
  | subject :: lines =>
      match lines.inits.find? fun body => EndsBody body with
      | none => ⟨[], subject :: lines⟩
      | some body =>
          let later := ofLines (lines.drop body.length)
          { later with drafts := ⟨subject, body⟩ :: later.drafts }
termination_by lines => lines.length
decreasing_by simp only [List.length_drop, List.length_cons]; omega

end Segmentation

section Shortest

variable {α : Type} {p : List α → Bool} {list found : List α}

/-- The first of the front parts of a list that satisfies `p` is a front part that
satisfies it, and no shorter one does. -/
theorem find?_inits_eq_some_iff :
    list.inits.find? p = some found ↔
      found <+: list ∧ p found ∧
        ∀ shorter, shorter <+: found → shorter ≠ found → ¬ p shorter := by
  -- The front parts of `a :: list` are those of `list` with `a` before them, so `p` changes too.
  induction list generalizing p found with
  | nil =>
      rw [List.inits, List.find?_singleton]
      constructor
      · intro h
        split at h
        next hp =>
            obtain rfl := Option.some.inj h
            exact ⟨List.prefix_rfl, hp, fun shorter hshorter hne =>
              absurd (List.prefix_nil.mp hshorter) hne⟩
        · simp at h
      · intro h
        obtain ⟨hfront, hp, -⟩ := h
        obtain rfl := List.prefix_nil.mp hfront
        rw [if_pos hp]
  | cons a list ih =>
      rw [List.inits_cons, List.find?_cons]
      cases hnil : p [] with
      | true =>
          -- The empty front part is the first one, and nothing is shorter.
          simp only [Option.some.injEq]
          constructor
          · rintro rfl
            exact ⟨List.nil_prefix, hnil, fun shorter hshorter hne =>
              absurd (List.prefix_nil.mp hshorter) hne⟩
          · intro h
            obtain ⟨-, -, hshortest⟩ := h
            by_contra hne
            exact hshortest [] List.nil_prefix hne hnil
      | false =>
          simp only [List.find?_map, Option.map_eq_some_iff, ih]
          constructor
          · intro h
            obtain ⟨tail, ⟨hfront, hp, hshortest⟩, rfl⟩ := h
            refine ⟨(List.prefix_cons_inj a).mpr hfront, hp, ?_⟩
            intro shorter hshorter hne
            cases shorter with
            | nil => simp [hnil]
            | cons b shorter =>
                obtain ⟨rfl, hbehind⟩ := List.cons_prefix_cons.mp hshorter
                exact hshortest shorter hbehind fun h => hne (congrArg _ h)
          · intro h
            obtain ⟨hfront, hp, hshortest⟩ := h
            cases found with
            | nil => simp [hnil] at hp
            | cons b tail =>
                obtain ⟨rfl, hbehind⟩ := List.cons_prefix_cons.mp hfront
                refine ⟨tail, ⟨hbehind, hp, ?_⟩, rfl⟩
                intro shorter hshorter hne
                exact hshortest (b :: shorter) ((List.prefix_cons_inj b).mpr hshorter)
                  (by simpa using hne)

end Shortest

namespace Segmentation

variable {subject : Text} {lines body : List Text}

theorem ofLines_of_unfinished (h : ∀ body, body <+: lines → ¬ EndsBody body) :
    ofLines (subject :: lines) = ⟨[], subject :: lines⟩ := by
  have hnone : lines.inits.find? (fun body => EndsBody body) = none := by
    rw [List.find?_eq_none]
    intro body hbody
    simpa using h body ((List.mem_inits body lines).mp hbody)
  rw [ofLines, hnone]

theorem ofLines_of_finished (h : Draft.Finished ⟨subject, body⟩) :
    ofLines (subject :: (body ++ lines)) =
      ⟨⟨subject, body⟩ :: (ofLines lines).drafts, (ofLines lines).unfinished⟩ := by
  have hsome : (body ++ lines).inits.find? (fun body => EndsBody body) = some body := by
    rw [find?_inits_eq_some_iff]
    exact ⟨List.prefix_append body lines, by simpa using h.ends, by simpa using h.shortest⟩
  rw [ofLines, hsome]
  simp

/-- Some lines either start with the body of a note or hold none. -/
theorem finished_or_unfinished (subject : Text) (lines : List Text) :
    (∃ body later, lines = body ++ later ∧ Draft.Finished ⟨subject, body⟩) ∨
      ∀ body, body <+: lines → ¬ EndsBody body := by
  cases hfound : lines.inits.find? (fun body => EndsBody body) with
  | some body =>
      obtain ⟨⟨later, hsplit⟩, hends, hshortest⟩ := find?_inits_eq_some_iff.mp hfound
      exact .inl ⟨body, later, hsplit.symm, by simpa using hends, by simpa using hshortest⟩
  | none =>
      rw [List.find?_eq_none] at hfound
      right
      intro body hbody
      simpa using hfound body ((List.mem_inits body lines).mpr hbody)

/-- Lines are nothing, or a note that is never finished, or a finished note with
lines behind it. -/
@[elab_as_elim]
theorem induction {motive : List Text → Prop} (nil : motive [])
    (unfinished : ∀ subject lines, (∀ body, body <+: lines → ¬ EndsBody body) →
      motive (subject :: lines))
    (finished : ∀ subject body later, Draft.Finished ⟨subject, body⟩ → motive later →
      motive (subject :: (body ++ later)))
    (lines : List Text) : motive lines := by
  -- A note is one subject and its body, so what is behind it is shorter by more than one line.
  induction hlength : lines.length using Nat.strong_induction_on generalizing lines with
  | _ length ih =>
      cases lines with
      | nil => exact nil
      | cons subject lines =>
          rcases finished_or_unfinished subject lines with
            ⟨body, later, rfl, hfinished⟩ | hunfinished
          · refine finished subject body later hfinished (ih later.length ?_ later rfl)
            simp only [List.length_cons, List.length_append] at hlength
            omega
          · exact unfinished subject lines hunfinished

/-- Cutting loses no line, moves none and uses none twice. -/
theorem lines_ofLines (lines : List Text) :
    (ofLines lines).drafts.flatMap Draft.lines ++ (ofLines lines).unfinished = lines := by
  induction lines using Segmentation.induction with
  | nil => rw [ofLines]; rfl
  | unfinished subject lines hunfinished =>
      rw [ofLines_of_unfinished hunfinished]
      rfl
  | finished subject body later hfinished ih =>
      rw [ofLines_of_finished hfinished]
      simp only [List.flatMap_cons, Draft.lines, List.append_assoc, List.cons_append]
      rw [ih]

end Segmentation

namespace Body

variable {body : Body} {lines : List Text}

theorem isComplete_iff : body.isComplete ↔ EndsBody body.lines := by
  rcases body with ⟨_ | ⟨last, _ | ⟨before, _ | ⟨first, older⟩⟩⟩⟩
  · simp [isComplete, EndsBody, Body.lines]
  · simp [isComplete, EndsBody, Body.lines]
  · simp [isComplete, EndsBody, Body.lines]
  · have hdrop : (last :: before :: first :: older).reverse.drop
        ((last :: before :: first :: older).reverse.length - 2) = [before, last] := by
      rw [List.length_reverse, List.drop_reverse]
      simp
    simp only [isComplete, EndsBody, Body.lines, hdrop]
    simp

theorem finish_eq : body.finish = body.lines.rdropWhile Text.isBlankLine := by
  rw [finish, lines, List.rdropWhile, List.reverse_reverse]

end Body

end ReceiptNotes
