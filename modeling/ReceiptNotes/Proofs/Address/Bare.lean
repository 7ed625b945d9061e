import ReceiptNotes.Proofs.Address.Socket

/-! # IPv6 addresses without brackets

A target without brackets is a host, unless a number stands behind its last colon. The last
group of an IPv6 address can look like such a number, and then what is before it is taken for
the host. It can be one only if a run of zero groups is left out with more than the last group
behind it: the run then stands for one group more, and the printer is sought at another address
(`Ipv6.MistakenFor`). All other addresses are found as they are, or they are rejected
(`Socket.isHost_iff_not_mistakenFor`). What is before the last colon may be no address at all; it
is then looked up as a name, which must not be found (`Socket.Lookup.NamesOnly`).
-/

namespace ReceiptNotes

namespace Ipv4

/-- A numeric host is read from digits, and a colon is none. -/
theorem colon_not_mem_of_looseNumber? {numeral : Text} {n : ℕ}
    (h : looseNumber? numeral = some n) : ':' ∉ numeral := by
  intro hcolon
  unfold looseNumber? at h
  split at h
  · have hdigits := List.mem_of_ne_of_mem (by decide) (List.mem_of_ne_of_mem (by decide) hcolon)
    exact absurd (Text.isSome_of_mem_digits h _ hdigits) (by decide)
  · have hdigits := List.mem_of_ne_of_mem (by decide) (List.mem_of_ne_of_mem (by decide) hcolon)
    exact absurd (Text.isSome_of_mem_digits h _ hdigits) (by decide)
  · exact absurd (Text.isSome_of_mem_digits h _ hcolon) (by decide)
  · exact absurd (Text.isSome_of_mem_digits h _ hcolon) (by decide)

/-- A host with a colon is no IPv4 address, in any of the numeric forms. -/
theorem ofHost?_eq_none {host : Text} (h : ':' ∈ host) : ofHost? host = none := by
  have hnumbers : (host.splitOn '.').mapM looseNumber? = none := by
    rw [Option.eq_none_iff_forall_ne_some]
    intro numbers hnumbers
    -- Every piece is a number, so no character of the host is a colon.
    have hpieces : ∀ piece ∈ host.splitOn '.', ∀ c ∈ piece, c ≠ ':' := by
      intro piece hpiece c hc hcolon
      obtain ⟨before, behind, hsplit⟩ := List.append_of_mem hpiece
      rw [hsplit, List.mapM_append, List.mapM_cons] at hnumbers
      simp only [Option.bind_eq_bind, Option.bind_eq_some_iff] at hnumbers
      obtain ⟨_, -, _, ⟨n, hn, -⟩, -⟩ := hnumbers
      exact colon_not_mem_of_looseNumber? hn (hcolon ▸ hc)
    have hhost : ∀ c ∈ ['.'].intercalate (host.splitOn '.'), c ≠ ':' :=
      Text.forall_mem_intercalate (by simp) hpieces
    rw [List.intercalate_splitOn] at hhost
    exact hhost ':' h rfl
  rw [ofHost?, hnumbers]
  rfl

end Ipv4

namespace Ipv6

variable {address other : Ipv6} {port : UInt16} {groups head : List UInt16}

/-! ## Where the text of an address ends -/

theorem groupsText_concat (h : groups ≠ []) (last : UInt16) :
    groupsText (groups ++ [last]) =
      groupsText groups ++ ':' :: Text.hexadecimal last.toNat := by
  induction groups with
  | nil => contradiction
  | cons group groups ih =>
      cases groups with
      | nil => simp [groupsText, List.intercalate_cons_cons]
      | cons next groups =>
          rw [List.cons_append, List.cons_append, groupsText_cons_cons, groupsText_cons_cons,
            ← List.cons_append, ih (List.cons_ne_nil _ _)]
          simp

theorem colon_mem_groupsText (h : 2 ≤ groups.length) : ':' ∈ groupsText groups := by
  match groups with
  | first :: second :: rest =>
      rw [groupsText_cons_cons]
      exact List.mem_append_right _ List.mem_cons_self

theorem colon_mem_toText (address : Ipv6) : ':' ∈ address.toText := by
  rw [toText]
  split
  · exact List.mem_append_left _ (by decide)
  split
  split
  · exact List.mem_append_left _ (List.mem_append_right _ (by decide))
  · exact colon_mem_groupsText (by rw [address.length_groups]; decide)

theorem head?_drop_zeros (groups : List UInt16) :
    (groups.drop (zeros groups)).head? ≠ some 0 := by
  induction groups with
  | nil => simp
  | cons group groups ih =>
      by_cases hgroup : group = 0
      · have hzeros : zeros (group :: groups) = zeros groups + 1 := by simp [zeros, hgroup]
        rwa [hzeros, List.drop_succ_cons]
      · have hzeros : zeros (group :: groups) = 0 := by simp [zeros, hgroup]
        simpa [hzeros] using hgroup

/-- A run of zero groups is left out whole: no zero group is behind it. -/
theorem head?_drop_longestZeros {start length : ℕ}
    (h : longestZeros groups = (start, length)) :
    (groups.drop (start + length)).head? ≠ some 0 := by
  induction groups generalizing start length with
  | nil => simp
  | cons group groups ih =>
      obtain ⟨later, count, hlater⟩ : ∃ later count, longestZeros groups = (later, count) :=
        ⟨_, _, rfl⟩
      simp only [longestZeros, hlater] at h
      split at h
      · obtain ⟨rfl, rfl⟩ := Prod.mk.inj h
        rw [Nat.zero_add]
        exact head?_drop_zeros _
      · obtain ⟨rfl, rfl⟩ := Prod.mk.inj h
        rw [Nat.add_right_comm, List.drop_succ_cons]
        exact ih hlater

/-! ## Texts that are no addresses -/

theorem pieceGroups?_concat_nil (tail : Bool) (pieces : List Text) :
    pieceGroups? tail (pieces ++ [[]]) = none := by
  induction pieces with
  | nil => cases tail <;> rfl
  | cons piece pieces ih =>
      rw [List.cons_append, pieceGroups?, ih]
      · cases group? piece <;> rfl
      · simp

/-- A single colon does not end an address. -/
theorem ofText?_colon (head : List UInt16) : ofText? (groupsText head ++ [':']) = none := by
  have hgap : splitGap? (groupsText head ++ [':']) = none := by
    rw [splitGap?_groupsText_append]
    rfl
  have hside : sideGroups? true (groupsText head ++ [':']) = none := by
    rw [sideGroups?, if_neg (by simp), List.splitOn_append_cons_self, List.splitOn_nil,
      pieceGroups?_concat_nil]
  rw [ofText?, hgap]
  simp only [hside, Option.bind_none]

/-- Without a gap, an address has all of its groups. -/
theorem ofText?_few (h : groups.length ≠ 8) : ofText? (groupsText groups) = none := by
  have hgap : splitGap? (groupsText groups) = none := by
    simpa [splitGap?] using splitGap?_groupsText_append groups []
  rw [ofText?, hgap]
  simp [sideGroups?_groupsText, ofGroups?, h]

/-! ## Addresses that are mistaken for others -/

/-- The text of an address is that of another address with a port behind it: a run of zero
groups is left out, there are groups behind it, and the last one is written as the port. -/
def MistakenFor (address other : Ipv6) (port : UInt16) : Prop :=
  address.mapped? = none ∧ ∃ head length tail last,
    longestZeros address.groups = (head.length, length) ∧ 1 < length ∧ tail ≠ [] ∧
    address.groups = head ++ List.replicate length 0 ++ tail ++ [last] ∧
    other.groups = head ++ List.replicate (length + 1) 0 ++ tail ∧
    Text.hexadecimal last.toNat = Text.decimal port.toNat

theorem MistakenFor.ne (h : MistakenFor address other port) : other ≠ address := by
  obtain ⟨-, head, length, tail, last, hzeros, -, htail, hgroups, hother, -⟩ := h
  rintro rfl
  -- The first group behind the run would have to be zero as well.
  have hbehind := head?_drop_longestZeros hzeros
  rw [hgroups] at hother
  rw [List.replicate_succ', ← List.append_assoc, List.append_assoc _ [0], List.append_assoc _ tail,
    List.append_cancel_left_eq] at hother
  rw [hgroups, List.append_assoc, hother, List.drop_left' (by simp)] at hbehind
  simp at hbehind

/-- The text of an address that leaves out a run of zero groups. -/
theorem toText_of_longestZeros {length : ℕ} {tail : List UInt16} (hmapped : address.mapped? = none)
    (hzeros : longestZeros address.groups = (head.length, length)) (hlength : 1 < length)
    (hgroups : address.groups = head ++ List.replicate length 0 ++ tail) :
    address.toText = groupsText head ++ "::".toList ++ groupsText tail := by
  rw [toText, hmapped]
  simp only [hzeros, if_pos hlength]
  rw [hgroups, List.drop_left' (by simp), List.append_assoc head, List.take_left]

/-- What is before the last colon of such an address is the address that it is mistaken for. -/
theorem MistakenFor.toText_eq (h : MistakenFor address other port) :
    ∃ host, address.toText = host ++ ':' :: Text.decimal port.toNat ∧ ':' ∈ host ∧
      ofText? host = some other := by
  obtain ⟨hmapped, head, length, tail, last, hzeros, hlength, htail, hgroups, hother, hport⟩ := h
  refine ⟨groupsText head ++ "::".toList ++ groupsText tail, ?_, by simp, ?_⟩
  · rw [List.append_assoc] at hgroups
    rw [toText_of_longestZeros hmapped hzeros hlength hgroups, groupsText_concat htail, hport,
      List.append_assoc _ (groupsText tail)]
  · have hhead : other.groups.take head.length = head := by
      rw [hother, List.append_assoc, List.take_left]
    have hbehind : other.groups.drop (head.length + (length + 1)) = tail := by
      rw [hother, List.drop_left' (by simp)]
    have hsplit : other.groups.take head.length ++ List.replicate (length + 1) 0 ++
        other.groups.drop (head.length + (length + 1)) = other.groups := by
      rw [hhead, hbehind, hother]
    have hgap := ofText?_gap (by omega) hsplit
    rwa [hhead, hbehind] at hgap

end Ipv6

namespace Socket

open Ipv6 (MistakenFor groupsText)
open Text (hexadecimal splitLast?_eq_none_iff splitLast?_eq_some_iff)

variable {lookup : Lookup} {address other : Ipv6} {host numeral : Text} {port : UInt16}

/-- A colon is no part of a name: a host with a colon is not found unless it is an address, or
an address with the name of an interface behind a percent sign. -/
def Lookup.NamesOnly (lookup : Lookup) : Prop :=
  ∀ ⦃host port found⦄, ':' ∈ host → '%' ∉ host → Ipv6.ofText? host = none →
    lookup host port = .ok found → found = []

theorem hexadecimal_eq_of_port? {n : ℕ} (h : port? (hexadecimal n) = some port) :
    hexadecimal n = Text.decimal port.toNat := by
  have hplus : (hexadecimal n).head? ≠ some '+' := by
    intro hhead
    exact absurd (Text.isSome_of_mem_hexadecimal (List.mem_of_mem_head? hhead)) (by decide)
  obtain ⟨v, hv, rfl⟩ := Option.map_eq_some_iff.mp h
  rw [Text.unsigned?_eq_filter hplus, Option.filter_eq_some_iff, decide_eq_true_eq] at hv
  rw [Text.hexadecimal_eq_decimal hv.1, UInt16.toNat_ofNat_of_lt' hv.2]

/-- A host that is written like an IPv6 address is one, or it is not numeric. -/
theorem host_of_colon (hchars : ∀ c ∈ host, Ipv6.IsAddressChar c) (hcolon : ':' ∈ host)
    (hport : port? numeral = some port) :
    (bracketed? host numeral <|> bare? host numeral) =
      (Ipv6.ofText? host).map fun address => v6 address 0 port := by
  have hbracketed : bracketed? host numeral = none := by
    rw [bracketed?]
    rintro inner rfl
    exact absurd (hchars '[' List.mem_cons_self) (by decide)
  have hpercent : '%' ∉ host := mt (hchars '%') (by decide)
  have hscoped : scoped? host = (Ipv6.ofText? host).map fun address => (address, 0) := by
    rw [scoped?, splitLast?_eq_none_iff.mpr hpercent]
  rw [hbracketed, bare?, hport, Ipv4.ofHost?_eq_none hcolon, hscoped]
  cases Ipv6.ofText? host <;> rfl

theorem exists_fault_of_not_found {target : Text}
    (h : ∀ found, sockets lookup (withPort target) = .ok found → found = []) :
    ∃ cause, resolve lookup target = .error (.configuration cause) := by
  cases hsockets : sockets lookup (withPort target) with
  | error cause => exact ⟨_, by rw [resolve, hsockets]⟩
  | ok found =>
      obtain rfl := h found hsockets
      exact ⟨_, by rw [resolve, hsockets]⟩

theorem names_toText (address : Ipv6) (port : UInt16) :
    Names address.toText (v6 address 0 port) := by
  intro another
  rw [host_of_colon (fun _ => Ipv6.isAddressChar_of_mem_toText) address.colon_mem_toText
    (port?_decimal another), Ipv6.ofText?_toText]
  rfl

/-- An address without brackets is found as it is, on the port for raw printing, or it is
rejected. -/
def IsHost (lookup : Lookup) (address : Ipv6) : Prop :=
  resolve lookup address.toText = .ok (v6 address 0 defaultPort) ∨
    ∃ cause, resolve lookup address.toText = .error (.configuration cause)

theorem IsHost.eq (h : IsHost lookup address)
    (hresolve : resolve lookup address.toText = .ok (v6 other 0 port)) : other = address := by
  rcases h with hfound | ⟨cause, hrejected⟩
  · rw [hfound] at hresolve
    injection hresolve with hsocket
    injection hsocket with haddress
    exact haddress.symm
  · rw [hrejected] at hresolve
    cases hresolve

theorem isAddressChar_of_mem_host (htext : address.toText = host ++ ':' :: numeral) :
    ∀ c ∈ host, Ipv6.IsAddressChar c := by
  intro c hc
  have hmem : c ∈ address.toText := htext ▸ List.mem_append_left _ hc
  exact Ipv6.isAddressChar_of_mem_toText hmem

section LastColon

variable (htext : address.toText = host ++ ':' :: numeral) (hnumeral : ':' ∉ numeral)

include htext hnumeral

theorem isHost_of_portless (hport : port? numeral = none) : IsHost lookup address := by
  have hportless : Portless address.toText := by
    rw [Portless, splitLast?_eq_some_iff.mpr ⟨htext, hnumeral⟩]
    exact hport
  exact Or.inl (resolve_of_portless lookup (names_toText address 0) hportless)

/-- A number behind the last colon is the port, and what is before the colon is the host. -/
theorem sockets_of_port? (hcolon : ':' ∈ host) (hport : port? numeral = some port) :
    sockets lookup (withPort address.toText) =
      match Ipv6.ofText? host with
      | some other => .ok [v6 other 0 port]
      | none => lookup host port := by
  have hsplit := splitLast?_eq_some_iff.mpr ⟨htext, hnumeral⟩
  have hchars := isAddressChar_of_mem_host htext
  have hwhole : withPort address.toText = address.toText := by
    simp only [withPort, hsplit, Option.bind_some, hport]
  simp only [sockets, hwhole, hsplit, host_of_colon hchars hcolon hport, hport]
  cases Ipv6.ofText? host <;> rfl

theorem isHost_of_ofText?_eq_none (hnames : lookup.NamesOnly) (hcolon : ':' ∈ host)
    (hhost : Ipv6.ofText? host = none) : IsHost lookup address := by
  cases hport : port? numeral with
  | none => exact isHost_of_portless htext hnumeral hport
  | some port =>
      refine Or.inr (exists_fault_of_not_found fun found hfound => ?_)
      rw [sockets_of_port? htext hnumeral hcolon hport, hhost] at hfound
      have hpercent : '%' ∉ host := mt (isAddressChar_of_mem_host htext '%') (by decide)
      exact hnames hcolon hpercent hhost hfound

end LastColon

theorem resolve_of_mistakenFor (lookup : Lookup) (h : MistakenFor address other port) :
    resolve lookup address.toText = .ok (v6 other 0 port) := by
  obtain ⟨host, htext, hcolon, hhost⟩ := h.toText_eq
  rw [resolve, sockets_of_port? htext (Text.not_mem_decimal rfl _) hcolon (port?_decimal port),
    hhost]

/-- The last four bytes of an address in the IPv4 form are no number. -/
theorem isHost_of_mapped? {ipv4 : Ipv4} (h : address.mapped? = some ipv4) :
    IsHost lookup address := by
  have htext : address.toText = "::ffff".toList ++ ':' :: ipv4.toText := by
    rw [Ipv6.toText, h]
    rfl
  have hport : port? ipv4.toText = none := by
    have hpoint : '.' ∈ ipv4.toText := by simp [Ipv4.toText]
    exact port?_eq_none hpoint (by decide)
  exact isHost_of_portless htext (ipv4.not_mem_toText rfl (by decide)) hport

/-- If a run of zero groups is left out, it matters how many groups are behind it. -/
theorem isHost_or_mistakenFor_of_gap (hnames : lookup.NamesOnly) {length : ℕ}
    {head tail : List UInt16} (hmapped : address.mapped? = none)
    (hzeros : Ipv6.longestZeros address.groups = (head.length, length)) (hlength : 1 < length)
    (hgroups : address.groups = head ++ List.replicate length 0 ++ tail) :
    IsHost lookup address ∨ ∃ other port, MistakenFor address other port := by
  have htext := Ipv6.toText_of_longestZeros hmapped hzeros hlength hgroups
  rcases List.eq_nil_or_concat tail with rfl | ⟨front, last, rfl⟩
  · have hcolons : address.toText = (groupsText head ++ [':']) ++ ':' :: [] := by
      rw [htext]
      simp [groupsText]
    exact Or.inl (isHost_of_portless hcolons List.not_mem_nil rfl)
  have hlast : ':' ∉ hexadecimal last.toNat := Ipv6.colon_not_mem_hexadecimal _
  rw [List.concat_eq_append] at htext hgroups
  by_cases hfront : front = []
  · have hcolons : address.toText =
        (groupsText head ++ [':']) ++ ':' :: hexadecimal last.toNat := by
      rw [htext, hfront]
      simp [groupsText]
    exact Or.inl
      (isHost_of_ofText?_eq_none hcolons hlast hnames (by simp) (Ipv6.ofText?_colon head))
  rw [Ipv6.groupsText_concat hfront, ← List.append_assoc] at htext
  cases hport : port? (hexadecimal last.toNat) with
  | none => exact Or.inl (isHost_of_portless htext hlast hport)
  | some port =>
      have hcount : (head ++ List.replicate (length + 1) 0 ++ front).length = 8 := by
        have := hgroups ▸ address.length_groups
        simp only [List.length_append, List.length_replicate, List.length_singleton] at this ⊢
        omega
      rw [← List.append_assoc] at hgroups
      exact Or.inr ⟨⟨_, hcount⟩, port, hmapped, head, length, front, last, hzeros, hlength, hfront,
        hgroups, rfl, hexadecimal_eq_of_port? hport⟩

/-- Without the last one, the groups of an address are too few. -/
theorem isHost_of_groupsText (hnames : lookup.NamesOnly)
    (htext : address.toText = groupsText address.groups) : IsHost lookup address := by
  have hcount := address.length_groups
  rcases List.eq_nil_or_concat address.groups with hnil | ⟨front, last, hconcat⟩
  · simp [hnil] at hcount
  rw [List.concat_eq_append] at hconcat
  have hfront : front.length = 7 := by
    rw [hconcat, List.length_append, List.length_singleton] at hcount
    omega
  rw [hconcat, Ipv6.groupsText_concat (by rintro rfl; simp at hfront)] at htext
  exact isHost_of_ofText?_eq_none htext (Ipv6.colon_not_mem_hexadecimal _) hnames
    (Ipv6.colon_mem_groupsText (by omega)) (Ipv6.ofText?_few (by omega))

theorem isHost_or_mistakenFor (hnames : lookup.NamesOnly) (address : Ipv6) :
    IsHost lookup address ∨ ∃ other port, MistakenFor address other port := by
  cases hmapped : address.mapped? with
  | some ipv4 => exact Or.inl (isHost_of_mapped? hmapped)
  | none =>
      obtain ⟨start, length, hzeros⟩ :
          ∃ start length, Ipv6.longestZeros address.groups = (start, length) := ⟨_, _, rfl⟩
      by_cases hlength : 1 < length
      · have hsplit := Ipv6.longestZeros_split hzeros
        have hstart : (address.groups.take start).length = start := by
          have := congrArg List.length hsplit
          simp only [List.length_append, List.length_replicate, List.length_take,
            List.length_drop] at this ⊢
          omega
        rw [← hstart] at hzeros
        exact isHost_or_mistakenFor_of_gap hnames hmapped hzeros hlength hsplit.symm
      · refine Or.inl (isHost_of_groupsText hnames ?_)
        rw [Ipv6.toText, hmapped]
        simp only [hzeros, if_neg hlength]

/-- An address without brackets is taken for a host unless it is mistaken for another address
with a port, and these are all of the addresses that another one is found for. -/
theorem isHost_iff_not_mistakenFor (hnames : lookup.NamesOnly) (address : Ipv6) :
    (IsHost lookup address ↔ ¬∃ other port, MistakenFor address other port) ∧
      ∀ other port, MistakenFor address other port ↔
        resolve lookup address.toText = .ok (v6 other 0 port) ∧ other ≠ address := by
  refine ⟨⟨?_, ?_⟩, fun other port => ⟨?_, ?_⟩⟩
  · rintro hhost ⟨other, port, hmistaken⟩
    exact hmistaken.ne (hhost.eq (resolve_of_mistakenFor lookup hmistaken))
  · exact (isHost_or_mistakenFor hnames address).resolve_right
  · exact fun hmistaken => ⟨resolve_of_mistakenFor lookup hmistaken, hmistaken.ne⟩
  · rintro ⟨hresolve, hne⟩
    rcases isHost_or_mistakenFor hnames address with hhost | ⟨another, number, hmistaken⟩
    · exact absurd (hhost.eq hresolve) hne
    · have hsame := (resolve_of_mistakenFor lookup hmistaken).symm.trans hresolve
      injection hsame with hsocket
      injection hsocket with haddress _ hport
      exact haddress ▸ hport ▸ hmistaken

/-- With a single group behind the run of zeros, an address is not mistaken for another one.
The lookup knows one printer by its name. -/
theorem isHost_beside_named_printer :
    let lookup : Lookup := fun host port =>
      if host = "kitchen".toList then .ok [v4 ⟨10, 0, 0, 7⟩ port] else Lookup.offline host port
    let address : Ipv6 := ⟨[0x2001, 0xDB8, 0, 0, 0, 0, 0, 2], rfl⟩
    resolve lookup "kitchen".toList = .ok (v4 ⟨10, 0, 0, 7⟩ defaultPort) ∧
      lookup.NamesOnly ∧ IsHost lookup address := by
  intro lookup address
  have hnames : lookup.NamesOnly := by
    intro host port found hcolon _ _ hfound
    have hne : host ≠ "kitchen".toList := by
      rintro rfl
      exact absurd hcolon (by decide)
    have hoffline : Lookup.offline host port = .ok found := (if_neg hne).symm.trans hfound
    simp [Lookup.offline] at hoffline
  have hzeros : Ipv6.longestZeros address.groups = (2, 5) := by decide
  refine ⟨by rfl, hnames, (isHost_iff_not_mistakenFor hnames address).1.mpr ?_⟩
  rintro ⟨other, port, -, head, length, tail, last, hrun, -, htail, hgroups, -⟩
  obtain ⟨hhead, rfl⟩ := Prod.mk.inj (hzeros.symm.trans hrun)
  have hcount := congrArg List.length hgroups
  simp only [address.length_groups, List.length_append, List.length_replicate, ← hhead,
    List.length_singleton] at hcount
  exact htail (List.length_eq_zero_iff.mp (by omega))

/-- The printer at `fe80::1:2` is sought at `fe80::1`, on port 2, whatever the lookup. -/
theorem not_isHost_link_local :
    (⟨[0xFE80, 0, 0, 0, 0, 0, 1, 2], rfl⟩ : Ipv6).toText = "fe80::1:2".toList ∧
      ∀ lookup : Lookup,
        resolve lookup "fe80::1:2".toList =
            .ok (v6 ⟨[0xFE80, 0, 0, 0, 0, 0, 0, 1], rfl⟩ 0 2) ∧
          ¬IsHost lookup ⟨[0xFE80, 0, 0, 0, 0, 0, 1, 2], rfl⟩ := by
  have htext : (⟨[0xFE80, 0, 0, 0, 0, 0, 1, 2], rfl⟩ : Ipv6).toText = "fe80::1:2".toList := by
    decide +kernel
  refine ⟨htext, fun lookup => ?_⟩
  have hresolve : resolve lookup "fe80::1:2".toList =
      .ok (v6 ⟨[0xFE80, 0, 0, 0, 0, 0, 0, 1], rfl⟩ 0 2) := by rfl
  refine ⟨hresolve, ?_⟩
  rw [IsHost, htext, hresolve]
  simp

end Socket

end ReceiptNotes
