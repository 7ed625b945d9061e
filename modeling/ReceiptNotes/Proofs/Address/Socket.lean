import Mathlib.Data.List.Basic
import ReceiptNotes.Address.Socket
import ReceiptNotes.Proofs.Address.Ipv6

/-! # Network printers are found by their own text

The text of a socket is that of its host, a colon and the port. Resolving it gives the
socket again. The host alone is given the port for raw printing, even if what stands
behind its last colon looks like a number (`Socket.resolve_reads_back`).
-/

namespace ReceiptNotes.Socket

open Text (not_mem_decimal splitLast? splitLast?_eq_none_iff splitLast?_eq_some_iff)

/-- An IPv6 address with its scope, unless that is zero. -/
def scopedText (address : Ipv6) (scope : UInt32) : Text :=
  address.toText ++ if scope = 0 then [] else ['%'] ++ Text.decimal scope.toNat

/-- The host of a socket without the port. -/
def hostText : Socket → Text
  | v4 address _ => address.toText
  | v6 address scope _ => ['['] ++ scopedText address scope ++ [']']

/-- The same host with another port. -/
def onPort : Socket → UInt16 → Socket
  | v4 address _, port => v4 address port
  | v6 address scope _, port => v6 address scope port

variable {socket : Socket} {host numeral : Text} {port : UInt16}

theorem onPort_port (socket : Socket) : socket.onPort socket.port = socket := by
  cases socket <;> rfl

theorem toText_eq (socket : Socket) :
    socket.toText = socket.hostText ++ [':'] ++ Text.decimal socket.port.toNat := by
  cases socket with
  | v4 address port => rfl
  | v6 address scope port => simp [toText, hostText, scopedText, Socket.port]

/-! ## Ports -/

theorem port?_decimal (port : UInt16) : port? (Text.decimal port.toNat) = some port := by
  have hsize : port.toNat < 0x10000 := port.toNat_lt
  rw [port?, Text.unsigned?_eq_filter (Text.head?_decimal_ne_plus _), Text.decimalValue?_decimal]
  simp [Option.filter, hsize]

/-- A port is written in digits, with a plus sign at most. -/
theorem isDigit_or_eq_plus_of_port? (h : port? numeral = some port) :
    ∀ c ∈ numeral, c.isDigit ∨ c = '+' := by
  obtain ⟨n, hn, -⟩ := Option.map_eq_some_iff.mp h
  by_cases hplus : numeral.head? = some '+'
  · obtain ⟨digits, rfl⟩ := List.head?_eq_some_iff.mp hplus
    have hvalue := Option.eq_some_of_filter_eq_some hn
    intro c hc
    rcases List.mem_cons.mp hc with hfront | hdigits
    · exact Or.inr hfront
    · exact Or.inl (Text.isDigit_of_decimalValue? hvalue c hdigits)
  · rw [Text.unsigned?_eq_filter hplus] at hn
    have hvalue := Option.eq_some_of_filter_eq_some hn
    exact fun c hc => Or.inl (Text.isDigit_of_decimalValue? hvalue c hc)

theorem port?_eq_none {c : Char} (hmem : c ∈ numeral) (hc : ¬(c.isDigit ∨ c = '+')) :
    port? numeral = none := by
  rw [Option.eq_none_iff_forall_ne_some]
  intro port hport
  exact hc (isDigit_or_eq_plus_of_port? hport c hmem)

theorem splitLast?_port (host : Text) (port : UInt16) :
    splitLast? ':' (host ++ [':'] ++ Text.decimal port.toNat) =
      some (host, Text.decimal port.toNat) :=
  splitLast?_eq_some_iff.mpr ⟨by simp, not_mem_decimal rfl _⟩

/-! ## Hosts -/

/-- Whatever the port, the host stands for the socket's address. -/
def Names (host : Text) (socket : Socket) : Prop :=
  ∀ port : UInt16, (bracketed? host (Text.decimal port.toNat) <|>
    bare? host (Text.decimal port.toNat)) = some (socket.onPort port)

/-- A host names no port if no number stands behind its last colon. -/
def Portless (host : Text) : Prop :=
  (splitLast? ':' host).bind (fun (_, numeral) => port? numeral) = none

theorem sockets_of_names (lookup : Lookup) (h : Names host socket) (port : UInt16) :
    sockets lookup (host ++ [':'] ++ Text.decimal port.toNat) = .ok [socket.onPort port] := by
  simp only [sockets, splitLast?_port, h port]

theorem resolve_of_names (lookup : Lookup) (h : Names host socket) (port : UInt16) :
    resolve lookup (host ++ [':'] ++ Text.decimal port.toNat) = .ok (socket.onPort port) := by
  have hport : withPort (host ++ [':'] ++ Text.decimal port.toNat) =
      host ++ [':'] ++ Text.decimal port.toNat := by
    simp only [withPort, splitLast?_port, Option.bind_some, port?_decimal]
  simp only [resolve, hport, sockets_of_names lookup h]

theorem resolve_of_portless (lookup : Lookup) (h : Names host socket)
    (hportless : Portless host) : resolve lookup host = .ok (socket.onPort defaultPort) := by
  have hport : withPort host = host ++ [':'] ++ Text.decimal defaultPort.toNat := by
    rw [withPort, hportless]
  simp only [resolve, hport, sockets_of_names lookup h]

theorem names_v4 (address : Ipv4) (port : UInt16) : Names address.toText (v4 address port) := by
  intro other
  have hbracketed : bracketed? address.toText (Text.decimal other.toNat) = none := by
    have hbracket : '[' ∉ address.toText := address.not_mem_toText rfl (by decide)
    rw [bracketed?]
    intro inner hhost
    simp [hhost] at hbracket
  rw [hbracketed]
  simp [bare?, port?_decimal, Ipv4.ofHost?_toText, onPort]

theorem portless_v4 (address : Ipv4) : Portless address.toText := by
  rw [Portless, splitLast?_eq_none_iff.mpr (address.not_mem_toText rfl (by decide))]
  rfl

theorem scoped?_scopedText (address : Ipv6) (scope : UInt32) :
    scoped? (scopedText address scope) = some (address, scope) := by
  have hpercent : '%' ∉ address.toText :=
    mt Ipv6.isAddressChar_of_mem_toText (by decide)
  rw [scoped?, scopedText]
  by_cases hscope : scope = 0
  · rw [if_pos hscope, List.append_nil, splitLast?_eq_none_iff.mpr hpercent, hscope]
    simp [Ipv6.ofText?_toText]
  · have hsplit : splitLast? '%' (address.toText ++ (['%'] ++ Text.decimal scope.toNat)) =
        some (address.toText, Text.decimal scope.toNat) :=
      splitLast?_eq_some_iff.mpr ⟨rfl, not_mem_decimal rfl _⟩
    have hsize : scope.toNat < 0x100000000 := scope.toNat_lt
    have hvalue : scope? (Text.decimal scope.toNat) = some scope := by
      simp [scope?, Option.filter, hsize]
    rw [if_neg hscope, hsplit]
    simp [Ipv6.ofText?_toText, hvalue]

theorem names_v6 (address : Ipv6) (scope : UInt32) (port : UInt16) :
    Names (['['] ++ scopedText address scope ++ [']']) (v6 address scope port) := by
  intro other
  have hplus := Text.head?_decimal_ne_plus other.toNat
  have hbracketed : bracketed? (['['] ++ scopedText address scope ++ [']'])
      (Text.decimal other.toNat) = some (v6 address scope other) := by
    simp [bracketed?, hplus, scoped?_scopedText, port?_decimal]
  rw [hbracketed]
  rfl

/-- The bracket at the end of the host is no part of a number. -/
theorem portless_v6 (inner : Text) : Portless (['['] ++ inner ++ [']']) := by
  rw [Portless, Option.bind_eq_none_iff]
  rintro ⟨before, behind⟩ hsplit
  obtain ⟨hhost, -⟩ := splitLast?_eq_some_iff.mp hsplit
  have hbracket : ']' ∈ behind := by
    have hlast := congrArg List.getLast? hhost
    rw [List.getLast?_concat, List.getLast?_append_cons] at hlast
    cases behind with
    | nil => simp at hlast
    | cons c behind => exact List.mem_of_getLast? hlast.symm
  exact port?_eq_none hbracket (by decide)

theorem names_hostText (socket : Socket) : Names socket.hostText socket := by
  cases socket with
  | v4 address port => exact names_v4 address port
  | v6 address scope port => exact names_v6 address scope port

theorem portless_hostText (socket : Socket) : Portless socket.hostText := by
  cases socket with
  | v4 address port => exact portless_v4 address
  | v6 address scope port => exact portless_v6 _

/-- Every socket is found by its own text, and its address on the port for raw printing by
its host alone. No name is looked up for it. -/
theorem resolve_reads_back (lookup : Lookup) (socket : Socket) :
    socket.toText = socket.hostText ++ [':'] ++ Text.decimal socket.port.toNat ∧
      resolve lookup socket.toText = .ok socket ∧
      resolve lookup socket.hostText = .ok (socket.onPort defaultPort) := by
  have hnames := names_hostText socket
  have hhost := resolve_of_portless lookup hnames (portless_hostText socket)
  refine ⟨toText_eq socket, ?_, hhost⟩
  rw [toText_eq, resolve_of_names lookup hnames, onPort_port]

end ReceiptNotes.Socket
