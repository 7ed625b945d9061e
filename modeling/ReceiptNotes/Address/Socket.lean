import ReceiptNotes.Address.Ipv6
import ReceiptNotes.Fault
import ReceiptNotes.Text.Split

/-! # Network printers

A printer on the network has an address and a port. The operator gives a host, or a
host and a port behind a colon; the port for raw printing is assumed if there is
none. Numeric hosts are taken literally: an IPv6 address in square brackets or bare, or
an IPv4 address in any of its numeric forms. All other hosts are looked up by name.
-/

namespace ReceiptNotes

/-- An address and a port. The scope of an IPv6 address is the number of a network
interface, or zero. -/
inductive Socket where
  | v4 (address : Ipv4) (port : UInt16)
  | v6 (address : Ipv6) (scope : UInt32) (port : UInt16)
  deriving DecidableEq

namespace Socket

open Text (splitLast?)

def defaultPort : UInt16 := 9100

def port : Socket → UInt16
  | v4 _ port => port
  | v6 _ _ port => port

def isV6 : Socket → Bool
  | v4 .. => false
  | v6 .. => true

def toText : Socket → Text
  | v4 address port => address.toText ++ [':'] ++ Text.decimal port.toNat
  | v6 address scope port =>
      ['['] ++ address.toText ++
        (if scope = 0 then [] else ['%'] ++ Text.decimal scope.toNat) ++
        "]:".toList ++ Text.decimal port.toNat

/-- A port number. A plus sign may stand before its digits. -/
def port? (numeral : Text) : Option UInt16 :=
  (Text.unsigned? 0x10000 numeral).map UInt16.ofNat

def scope? (digits : Text) : Option UInt32 :=
  ((Text.decimalValue? digits).filter (· < 0x100000000)).map UInt32.ofNat

/-- An IPv6 address, and its scope if one stands behind a percent sign. -/
def scoped? (text : Text) : Option (Ipv6 × UInt32) :=
  match splitLast? '%' text with
  | none => (Ipv6.ofText? text).map fun address => (address, 0)
  | some (address, scope) => do return (← Ipv6.ofText? address, ← scope? scope)

/-- A socket given by an IPv6 address in brackets and the digits of a port. -/
def bracketed? (host port : Text) : Option Socket :=
  match host with
  | '[' :: inner =>
      if inner.getLast? = some ']' ∧ port.head? ≠ some '+' then do
        let (address, scope) ← scoped? inner.dropLast
        return .v6 address scope (← port? port)
      else none
  | _ => none

/-- A socket given by a bare numeric host and a port. -/
def bare? (host port : Text) : Option Socket := do
  let port ← port? port
  match Ipv4.ofHost? host with
  | some address => return .v4 address port
  | none =>
      let (address, scope) ← scoped? host
      return .v6 address scope port

/-- What is known of a name: the sockets of its host on a port, the best one first, or why
they cannot be told. -/
abbrev Lookup := Text → UInt16 → Except Text (List Socket)

/-- No name is known without a network. -/
def Lookup.offline : Lookup :=
  fun _ _ => .error "failed to lookup address information: Name or service not known".toList

/-- The sockets of a host and a port. Only a host that is not numeric is looked up. -/
def sockets (lookup : Lookup) (text : Text) : Except Text (List Socket) :=
  match splitLast? ':' text with
  | none => .error "invalid socket address".toList
  | some (host, numeral) =>
      match bracketed? host numeral <|> bare? host numeral, port? numeral with
      | some socket, _ => .ok [socket]
      | none, some port => lookup host port
      | none, none => .error "invalid port value".toList

/-- What the operator gave, with the port for raw printing if it names no port. -/
def withPort (target : Text) : Text :=
  match (splitLast? ':' target).bind fun (_, numeral) => port? numeral with
  | some _ => target
  | none => target ++ [':'] ++ Text.decimal defaultPort.toNat

/-- The first socket of what the operator gave. -/
def resolve (lookup : Lookup) (target : Text) : Except Fault Socket :=
  match sockets lookup (withPort target) with
  | .error cause => .error (.configuration (.unresolved target cause))
  | .ok [] => .error (.configuration (.noAddress target))
  | .ok (socket :: _) => .ok socket

end Socket

end ReceiptNotes
