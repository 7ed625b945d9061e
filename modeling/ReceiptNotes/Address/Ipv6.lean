import ReceiptNotes.Address.Ipv4

/-! # IPv6 addresses

Eight groups of sixteen bits. In the text, groups are hexadecimal and stand between
colons; one run of zero groups may be left out, which leaves two colons; and the last
two groups may be given as an IPv4 address. The canonical text leaves out the first
one of the longest runs of at least two zero groups, and uses the IPv4 form for
addresses that stand for an IPv4 address.
-/

namespace ReceiptNotes

/-- An IPv6 address, from its most significant group on. -/
structure Ipv6 where
  groups : List UInt16
  length_groups : groups.length = 8
  deriving DecidableEq

namespace Ipv6

/-- A group in one to four hexadecimal digits. -/
def group? (numeral : Text) : Option UInt16 :=
  if numeral.length ≤ 4 then (Text.hexValue? numeral).map UInt16.ofNat else none

def ipv4Groups (address : Ipv4) : List UInt16 :=
  [address.first.toUInt16 * 0x100 + address.second.toUInt16,
    address.third.toUInt16 * 0x100 + address.fourth.toUInt16]

/-- The groups that pieces between colons stand for; the last piece may be an IPv4
address if `tail` says so. -/
def pieceGroups? (tail : Bool) : List Text → Option (List UInt16)
  | [] => some []
  | [piece] =>
      match group? piece with
      | some group => some [group]
      | none => if tail then (Ipv4.ofText? piece).map ipv4Groups else none
  | piece :: pieces => do return (← group? piece) :: (← pieceGroups? tail pieces)

def sideGroups? (tail : Bool) (text : Text) : Option (List UInt16) :=
  if text.isEmpty then some [] else pieceGroups? tail (text.splitOn ':')

/-- A text before and behind its first two adjacent colons, if it has them. -/
def splitGap? : Text → Option (Text × Text)
  | ':' :: ':' :: behind => some ([], behind)
  | c :: text => (splitGap? text).map fun (before, behind) => (c :: before, behind)
  | [] => none

def ofGroups? (groups : List UInt16) : Option Ipv6 :=
  if h : groups.length = 8 then some ⟨groups, h⟩ else none

/-- The address that a text stands for. A gap stands for at least one group. -/
def ofText? (text : Text) : Option Ipv6 :=
  match splitGap? text with
  | none => (sideGroups? true text).bind ofGroups?
  | some (before, behind) => do
      let head ← sideGroups? false before
      let tail ← sideGroups? true behind
      if head.length + tail.length < 8 then
        ofGroups? (head ++ List.replicate (8 - (head.length + tail.length)) 0 ++ tail)
      else none

/-- The IPv4 address that an address stands for, if its first five groups are zero and
the sixth is all ones. -/
def mapped? (address : Ipv6) : Option Ipv4 :=
  match address.groups with
  | [0, 0, 0, 0, 0, 0xFFFF, high, low] =>
      some ⟨(high / 0x100).toUInt8, high.toUInt8, (low / 0x100).toUInt8, low.toUInt8⟩
  | _ => none

def zeros (groups : List UInt16) : Nat :=
  (groups.takeWhile (· = 0)).length

/-- The start and the length of the first one of the longest runs of zero groups. -/
def longestZeros : List UInt16 → Nat × Nat
  | [] => (0, 0)
  | group :: groups =>
      let here := zeros (group :: groups)
      let (start, length) := longestZeros groups
      if length ≤ here then (0, here) else (start + 1, length)

def groupsText (groups : List UInt16) : Text :=
  [':'].intercalate (groups.map fun group => Text.hexadecimal group.toNat)

def toText (address : Ipv6) : Text :=
  match address.mapped? with
  | some ipv4 => "::ffff:".toList ++ ipv4.toText
  | none =>
      let (start, length) := longestZeros address.groups
      if 1 < length then
        groupsText (address.groups.take start) ++ "::".toList ++
          groupsText (address.groups.drop (start + length))
      else groupsText address.groups

end Ipv6

end ReceiptNotes
