import ReceiptNotes.Proofs.Session.Cancellation
import ReceiptNotes.Proofs.Text.Lines
import ReceiptNotes.Proofs.Text.Utf8

/-! # The two sources of lines

The sources make the same lines of the same bytes, up to the first line that is not
UTF-8, and differ only in how they report that line (`Arrival.ofBytes_malformed`). As
nothing behind a read error is heard, it does not matter either whether a source would
go on behind it (`Arrival.readOn`). So a session comes to the same on both of them
(`Session.sources_agree`).
-/

namespace ReceiptNotes

namespace Arrival

/-- What a source makes of the bytes of one line. -/
def ofPiece (source : Source) (piece : Bytes) : Arrival :=
  match Text.Utf8.decode piece with
  | .ok text => .line (Lines.chomp '\n' '\r' text) 0
  | .error fault => .broken (source.report fault)

/-- The lines of a source that goes on behind a line that is not UTF-8. -/
def readOn (source : Source) (bytes : Bytes) : List Arrival :=
  (Bytes.pieces bytes).map (ofPiece source)

/-- Some stretches of bytes are UTF-8 each. -/
def Readable (pieces : List Bytes) : Prop :=
  ∀ piece ∈ pieces, ∃ text, Text.Utf8.decode piece = .ok text

variable {pieces good behind : List Bytes} {bad bytes : Bytes} {fault : Text.Utf8.Fault}

/-- What can be read is read alike by both sources, whatever is behind it. -/
theorem lines_of_readable (h : Readable good) : ∃ lines : List Text,
    lines.length = good.length ∧ ∀ source behind,
      ofPieces source (good ++ behind) = Input.present lines ++ ofPieces source behind ∧
        (good ++ behind).map (ofPiece source) =
          Input.present lines ++ behind.map (ofPiece source) := by
  induction good with
  | nil => exact ⟨[], rfl, fun source behind => ⟨rfl, rfl⟩⟩
  | cons piece good ih =>
      obtain ⟨⟨text, htext⟩, hlater⟩ := List.forall_mem_cons.mp h
      obtain ⟨lines, hlength, hlines⟩ := ih hlater
      refine ⟨Lines.chomp '\n' '\r' text :: lines, by simp [hlength], fun source behind => ?_⟩
      obtain ⟨hstops, hgoes⟩ := hlines source behind
      constructor
      · rw [List.cons_append, ofPieces, htext]
        simp only [hstops]
        rfl
      · rw [List.cons_append, List.map_cons, hgoes, ofPiece, htext]
        rfl

theorem ofPieces_malformed (source : Source) (hbad : Text.Utf8.decode bad = .error fault) :
    ofPieces source (bad :: behind) = [.broken (source.report fault)] ∧
      (bad :: behind).map (ofPiece source) =
        .broken (source.report fault) :: behind.map (ofPiece source) := by
  rw [ofPieces, List.map_cons, ofPiece, hbad]
  exact ⟨rfl, rfl⟩

/-- Either all of some stretches can be read, or there is a first one that cannot. -/
theorem readable_or_malformed (pieces : List Bytes) :
    Readable pieces ∨ ∃ good bad behind fault, pieces = good ++ bad :: behind ∧
      Readable good ∧ Text.Utf8.decode bad = .error fault := by
  induction pieces with
  | nil => exact .inl (by simp [Readable])
  | cons piece pieces ih =>
      cases hpiece : Text.Utf8.decode piece with
      | error fault => exact .inr ⟨[], piece, pieces, fault, rfl, by simp [Readable], hpiece⟩
      | ok text =>
          have hread : ∃ text, Text.Utf8.decode piece = .ok text := ⟨text, hpiece⟩
          rcases ih with hall | ⟨good, bad, behind, fault, rfl, hgood, hbad⟩
          · exact .inl (List.forall_mem_cons.mpr ⟨hread, hall⟩)
          · exact .inr ⟨piece :: good, bad, behind, fault, rfl,
              List.forall_mem_cons.mpr ⟨hread, hgood⟩, hbad⟩

theorem ofBytes_readable (h : Readable (Bytes.pieces bytes)) : ∃ lines, ∀ source,
    ofBytes source bytes = Input.present lines ∧ readOn source bytes = Input.present lines := by
  obtain ⟨lines, -, hlines⟩ := lines_of_readable h
  refine ⟨lines, fun source => ?_⟩
  simpa [ofBytes, readOn, ofPieces] using hlines source []

/-- Of bytes with a line that is not UTF-8, both sources make the same lines and report
that one. -/
theorem ofBytes_malformed (hpieces : Bytes.pieces bytes = good ++ bad :: behind)
    (hgood : Readable good) (hbad : Text.Utf8.decode bad = .error fault) :
    ∃ lines : List Text, lines.length = good.length ∧ ∀ source,
      ofBytes source good.flatten = Input.present lines ∧
      ofBytes source bytes = Input.present lines ++ [.broken (source.report fault)] ∧
      readOn source bytes = Input.present lines ++
        .broken (source.report fault) :: behind.map (ofPiece source) := by
  obtain ⟨lines, hlength, hlines⟩ := lines_of_readable hgood
  refine ⟨lines, hlength, fun source => ⟨?_, ?_, ?_⟩⟩
  · have hfront : Bytes.pieces good.flatten = good := Lines.pieces_flatten hpieces (by simp)
    rw [ofBytes, hfront]
    simpa [ofPieces] using (hlines source []).1
  · rw [ofBytes, hpieces, (hlines source _).1, (ofPieces_malformed source hbad).1]
  · rw [readOn, hpieces, (hlines source _).2, (ofPieces_malformed source hbad).2]

end Arrival

open Arrival (ofBytes readOn Readable)

namespace Session

variable (session : Session) {shutdown : Option Nat} (limit : Option Nat)

/-- A read error that comes before a cancellation is told unless the run on the lines before
it has ended with a fault of input or output. -/
theorem hold_broken {lines : List Text} (h : ∀ look ∈ shutdown, lines.length + 1 < look) :
    ∃ result later out, session.hold none (Input.present lines) limit = (result, later, out) ∧
      (∀ fault, result = .error fault → ∃ cause, fault = .io cause) ∧
      ∀ cause behind,
        session.hold shutdown (Input.present lines ++ .broken cause :: behind) limit =
          (result.bind fun _ => .error (.io cause), later, out) := by
  have hpatient : ∀ left ∈ shutdown.map (· - 1),
      ((Input.present lines).map Arrival.looks).sum < left := by
    intro left hleft
    obtain ⟨look, hlook, rfl⟩ := Option.map_eq_some_iff.mp hleft
    have hbefore := h look hlook
    rw [Input.sum_looks_present]
    omega
  rcases hrun : session.hold none (Input.present lines) limit with ⟨result, later, out⟩
  have hbreaks : ∀ cause behind,
      session.hold none (Input.present lines ++ .broken cause :: behind) limit =
          (result.bind fun _ => .error (.io cause), later, out) ∧
        ∀ fault, result = .error fault → ∃ cause, fault = .io cause := by
    intro cause behind
    obtain ⟨_, _, _, hlines, hbroken, hio⟩ :=
      (breaksAfter (lines.map fun line => (line, 0)) cause behind).broken
    cases hrun.symm.trans hlines
    exact ⟨hbroken, hio⟩
  refine ⟨result, later, out, rfl, (hbreaks .malformedStream []).2, fun cause behind => ?_⟩
  rw [← (hbreaks cause behind).1, hold, hold, Input.present,
    Input.hear_ofLines_of_patient hpatient, Option.map_none,
    Input.hear_ofLines_of_patient (by simp)]

/-- Behind lines that come after the cancellation, nothing makes a difference. -/
theorem hold_of_cancelled {lines : List Text} {look : Nat} (h : look ≤ lines.length + 1)
    (later : List Arrival) :
    session.hold (some look) (Input.present lines ++ later) limit =
      session.hold (some look) (Input.present lines) limit := by
  have himpatient : look - 1 ≤ ((Input.present lines).map Arrival.looks).sum := by
    rw [Input.sum_looks_present]
    omega
  simp only [hold, Option.map_some]
  rw [Input.present, Input.hear_ofLines_of_impatient himpatient]

theorem hold_malformed {good behind : List Bytes} {bad bytes : Bytes} {fault : Text.Utf8.Fault}
    (hpieces : Bytes.pieces bytes = good ++ bad :: behind) (hgood : Readable good)
    (hbad : Text.Utf8.decode bad = .error fault)
    (hshutdown : ∀ look ∈ shutdown, good.length + 1 < look) :
    ∃ result later out, (∀ fault, result = .error fault → ∃ cause, fault = .io cause) ∧
      ∀ source,
        session.hold none (ofBytes source good.flatten) limit = (result, later, out) ∧
        session.hold shutdown (ofBytes source bytes) limit =
          (result.bind fun _ => .error (.io (source.report fault)), later, out) := by
  obtain ⟨lines, hlength, hlines⟩ := Arrival.ofBytes_malformed hpieces hgood hbad
  rw [← hlength] at hshutdown
  obtain ⟨result, later, out, hfront, hio, hbroken⟩ := hold_broken session limit hshutdown
  refine ⟨result, later, out, hio, fun source => ?_⟩
  obtain ⟨hgoodLines, hall, -⟩ := hlines source
  rw [hgoodLines, hall]
  exact ⟨hfront, hbroken _ []⟩

/-- Runs, one on each source, that tell and hand over the same. They end with the same
result, unless they end with the report on a line that is not UTF-8. -/
def Alike (runs : Source → Except Fault Summary × Session × Sink) : Prop :=
  ∃ (result : Source → Except Fault Summary) (later : Session) (out : Sink),
    (∀ source, runs source = (result source, later, out)) ∧
    (result .stream = result .blocking ∨
      ∃ fault, ∀ source, result source = .error (.io (source.report fault)))

theorem Alike.of_eq {runs : Source → Except Fault Summary × Session × Sink}
    {run : Except Fault Summary × Session × Sink} (h : ∀ source, runs source = run) :
    Alike runs :=
  ⟨fun _ => run.1, run.2.1, run.2.2, h, .inl rfl⟩

/-- What a run on some bytes has in common on both sources. -/
structure SourcesAgree (session : Session) (shutdown limit : Option Nat) (bytes : Bytes) :
    Prop where
  alike : Alike fun source => session.hold shutdown (ofBytes source bytes) limit
  /-- If every line is UTF-8, the runs are the same. -/
  readable : Readable (Bytes.pieces bytes) →
    session.hold shutdown (ofBytes .stream bytes) limit =
      session.hold shutdown (ofBytes .blocking bytes) limit
  /-- The first line that is not UTF-8 ends the run, on either source, where the run on the
  bytes before it ends. A run that has not been cancelled by then ends with a fault of input
  or output. -/
  malformed : ∀ good bad behind fault, Bytes.pieces bytes = good ++ bad :: behind →
    Readable good → Text.Utf8.decode bad = .error fault →
    (∀ look ∈ shutdown, good.length + 1 < look) →
    ∃ result later out, (∀ fault, result = .error fault → ∃ cause, fault = .io cause) ∧
      ∀ source,
        session.hold none (ofBytes source good.flatten) limit = (result, later, out) ∧
        session.hold shutdown (ofBytes source bytes) limit =
          (result.bind fun _ => .error (.io (source.report fault)), later, out)
  /-- Whether a source would go on behind such a line does not matter. -/
  readOn : ∀ source, session.hold shutdown (readOn source bytes) limit =
    session.hold shutdown (ofBytes source bytes) limit

/-- A session comes to the same on both sources of lines, whatever the bytes are. -/
theorem sources_agree (session : Session) (shutdown limit : Option Nat) (bytes : Bytes) :
    SourcesAgree session shutdown limit bytes where
  alike := by
    rcases Arrival.readable_or_malformed (Bytes.pieces bytes) with
      hreadable | ⟨good, bad, behind, fault, hpieces, hgood, hbad⟩
    · obtain ⟨lines, hlines⟩ := Arrival.ofBytes_readable hreadable
      exact Alike.of_eq fun source => by rw [(hlines source).1]
    · by_cases hshutdown : ∀ look ∈ shutdown, good.length + 1 < look
      · obtain ⟨result, later, out, -, hruns⟩ :=
          hold_malformed session limit hpieces hgood hbad hshutdown
        refine ⟨_, later, out, fun source => (hruns source).2, ?_⟩
        cases result with
        | error fault => exact .inl rfl
        | ok summary => exact .inr ⟨fault, fun source => rfl⟩
      · obtain ⟨lines, hlength, hlines⟩ := Arrival.ofBytes_malformed hpieces hgood hbad
        push Not at hshutdown
        obtain ⟨look, rfl, hlook⟩ := hshutdown
        rw [← hlength] at hlook
        apply Alike.of_eq
        intro source
        rw [(hlines source).2.1, hold_of_cancelled session limit hlook]
  readable hreadable := by
    obtain ⟨lines, hlines⟩ := Arrival.ofBytes_readable hreadable
    rw [(hlines .stream).1, (hlines .blocking).1]
  malformed good bad behind fault hpieces hgood hbad hshutdown :=
    hold_malformed session limit hpieces hgood hbad hshutdown
  readOn source := by
    rcases Arrival.readable_or_malformed (Bytes.pieces bytes) with
      hreadable | ⟨good, bad, behind, fault, hpieces, hgood, hbad⟩
    · obtain ⟨lines, hlines⟩ := Arrival.ofBytes_readable hreadable
      rw [(hlines source).1, (hlines source).2]
    · obtain ⟨lines, hlength, hlines⟩ := Arrival.ofBytes_malformed hpieces hgood hbad
      obtain ⟨-, hstops, hgoes⟩ := hlines source
      rw [hstops, hgoes, hold, hold, Input.hear_append_broken]

/-- The fifth line is not UTF-8. By then the first note has been printed; a cancellation at
the sixth look comes too late. -/
theorem sources_agree_malformed :
    let session : Session := .ofProfile .default (.memory false) fun _ => default
    let good : List Bytes := ["a\r\n", "b\n", "\n", "\r\n"].map fun line => Text.utf8 line.toList
    let bytes := good.flatten ++ [0xC3, 0x0A, 0x63]
    Bytes.pieces bytes = good ++ [0xC3, 0x0A] :: [[0x63]] ∧ Readable good ∧
      Text.Utf8.decode [0xC3, 0x0A] = .error (.malformed 1 0) ∧
      ∃ later out, ∀ source,
        session.hold none (ofBytes source good.flatten) none =
          (.ok ⟨1, 0, .inputClosed⟩, later, out) ∧
        session.hold (some 6) (ofBytes source bytes) none =
          (.error (.io (source.report (.malformed 1 0))), later, out) := by
  intro session good bytes
  have hpieces : Bytes.pieces bytes = good ++ [0xC3, 0x0A] :: [[0x63]] := by decide
  have hgood : Readable good := by
    intro piece hpiece
    obtain ⟨line, -, rfl⟩ := List.mem_map.mp hpiece
    exact ⟨line.toList, Text.Utf8.decode_utf8 _⟩
  have hbad : Text.Utf8.decode [0xC3, 0x0A] = .error (.malformed 1 0) := by decide
  obtain ⟨result, later, out, -, hruns⟩ :=
    (sources_agree session (some 6) none bytes).malformed good _ _ _ hpieces hgood hbad
      (by decide)
  have hsummary : (session.hold none (ofBytes .stream good.flatten) none).1.toOption =
      some ⟨1, 0, .inputClosed⟩ := by decide +kernel
  rw [(hruns .stream).1] at hsummary
  obtain rfl : result = .ok ⟨1, 0, .inputClosed⟩ := by
    cases result with
    | error fault => contradiction
    | ok summary => exact congrArg _ (Option.some.inj hsummary)
  exact ⟨hpieces, hgood, hbad, later, out, hruns⟩

end Session

end ReceiptNotes
