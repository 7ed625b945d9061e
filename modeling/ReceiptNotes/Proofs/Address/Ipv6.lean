import ReceiptNotes.Address.Ipv6
import ReceiptNotes.Proofs.Address.Ipv4

/-! # IPv6 addresses are read back

The canonical text of an address leaves out its first longest run of zero groups, or ends
in an IPv4 address. In either form the reader gives the same eight groups again
(`Ipv6.ofText?_toText`).
-/

namespace ReceiptNotes.Ipv6

section Groups

variable {groups : List UInt16} {tail : Bool} {text : Text}

theorem group?_hexadecimal (group : UInt16) :
    group? (Text.hexadecimal group.toNat) = some group := by
  have hsize : group.toNat < 0x10000 := group.toNat_lt
  have hlength : (Text.hexadecimal group.toNat).length ≤ 4 :=
    (Text.length_hexadecimal_le_iff (by decide)).mpr (by omega)
  rw [group?, if_pos hlength, Text.hexValue?_hexadecimal, Option.map_some,
    UInt16.ofNat_toNat]

theorem pieceGroups?_hexadecimal (tail : Bool) (groups : List UInt16) :
    pieceGroups? tail (groups.map fun group => Text.hexadecimal group.toNat) = some groups := by
  induction groups with
  | nil => rfl
  | cons group groups ih =>
      cases groups with
      | nil => simp [pieceGroups?, group?_hexadecimal]
      | cons next groups =>
          rw [List.map_cons, pieceGroups?, ih, group?_hexadecimal]
          · rfl
          · simp

theorem colon_not_mem_hexadecimal (n : ℕ) : ':' ∉ Text.hexadecimal n := by
  intro h
  exact absurd (Text.isSome_of_mem_hexadecimal h) (by decide)

theorem groupsText_cons_cons (group next : UInt16) (groups : List UInt16) :
    groupsText (group :: next :: groups) =
      Text.hexadecimal group.toNat ++ ':' :: groupsText (next :: groups) := by
  simp [groupsText, List.intercalate_cons_cons]

theorem groupsText_eq_nil_iff : groupsText groups = [] ↔ groups = [] := by
  cases groups with
  | nil => simp [groupsText]
  | cons group groups =>
      cases groups with
      | nil => simp [groupsText]
      | cons next groups => simp [groupsText_cons_cons]

/-- Groups between colons are read back, whether or not an IPv4 address may end them. -/
theorem sideGroups?_groupsText (tail : Bool) (groups : List UInt16) :
    sideGroups? tail (groupsText groups) = some groups := by
  by_cases hempty : groups = []
  · rw [hempty]
    rfl
  · have hpieces : (groupsText groups).splitOn ':' =
        groups.map fun group => Text.hexadecimal group.toNat := by
      refine List.splitOn_intercalate ':' ?_ (by simpa using hempty)
      intro numeral hnumeral
      obtain ⟨group, -, rfl⟩ := List.mem_map.mp hnumeral
      exact colon_not_mem_hexadecimal _
    have hne : (groupsText groups).isEmpty = false := by
      rw [List.isEmpty_eq_false_iff]
      exact mt groupsText_eq_nil_iff.mp hempty
    rw [sideGroups?, hne, if_neg (by simp), hpieces, pieceGroups?_hexadecimal]

end Groups

section Gap

variable {before behind piece rest : Text}

/-- There is no gap inside a stretch without colons. -/
theorem splitGap?_append (h : ':' ∉ piece) :
    splitGap? (piece ++ rest) =
      (splitGap? rest).map fun sides => (piece ++ sides.1, sides.2) := by
  induction piece with
  | nil => simp
  | cons c piece ih =>
      obtain ⟨hc, hpiece⟩ := not_or.mp (mt List.mem_cons.mpr h)
      rw [List.cons_append, splitGap?, ih hpiece]
      · rw [Option.map_map]
        rfl
      · intro behind heq
        exact absurd heq.symm (by simpa using hc)

/-- A single colon is no gap. -/
theorem splitGap?_colon (h : rest.head? ≠ some ':') :
    splitGap? (':' :: rest) = (splitGap? rest).map fun sides => (':' :: sides.1, sides.2) := by
  rw [splitGap?]
  intro behind _ hrest
  simp [hrest] at h

theorem head?_groupsText_append (group : UInt16) (groups : List UInt16) :
    (groupsText (group :: groups) ++ rest).head? ≠ some ':' := by
  have hcolon := colon_not_mem_hexadecimal group.toNat
  obtain ⟨c, digits, hdigits⟩ :=
    List.exists_cons_of_ne_nil (Text.hexadecimal_ne_nil group.toNat)
  rw [hdigits, List.mem_cons, not_or] at hcolon
  cases groups with
  | nil => simp [groupsText, hdigits, Ne.symm hcolon.1]
  | cons next groups => simp [groupsText_cons_cons, hdigits, Ne.symm hcolon.1]

/-- There is no gap inside a stretch of groups, so the first gap of a text that starts with
groups is behind them. -/
theorem splitGap?_groupsText_append (groups : List UInt16) (rest : Text) :
    splitGap? (groupsText groups ++ rest) =
      (splitGap? rest).map fun sides => (groupsText groups ++ sides.1, sides.2) := by
  induction groups with
  | nil => simp [groupsText]
  | cons group groups ih =>
      cases groups with
      | nil => simpa [groupsText] using splitGap?_append (colon_not_mem_hexadecimal _)
      | cons next groups =>
          rw [groupsText_cons_cons, List.append_assoc, List.cons_append,
            splitGap?_append (colon_not_mem_hexadecimal _),
            splitGap?_colon (head?_groupsText_append next groups), ih]
          simp [Option.map_map, Function.comp_def]

end Gap

section Zeros

variable {groups : List UInt16}

theorem replicate_zeros_append (groups : List UInt16) :
    List.replicate (zeros groups) 0 ++ groups.drop (zeros groups) = groups := by
  induction groups with
  | nil => rfl
  | cons group groups ih =>
      by_cases hgroup : group = 0
      · have hzeros : zeros (group :: groups) = zeros groups + 1 := by simp [zeros, hgroup]
        rw [hzeros, List.replicate_succ, List.drop_succ_cons, List.cons_append, ih, hgroup]
      · have hzeros : zeros (group :: groups) = 0 := by simp [zeros, hgroup]
        rw [hzeros]
        rfl

/-- Where the longest run of zero groups has been found, there are zero groups. -/
theorem longestZeros_split {start length : ℕ} (h : longestZeros groups = (start, length)) :
    groups.take start ++ List.replicate length 0 ++ groups.drop (start + length) = groups := by
  induction groups generalizing start length with
  | nil =>
      obtain ⟨rfl, rfl⟩ := Prod.mk.inj h
      rfl
  | cons group groups ih =>
      obtain ⟨later, count, hlater⟩ : ∃ later count, longestZeros groups = (later, count) :=
        ⟨_, _, rfl⟩
      simp only [longestZeros, hlater] at h
      split at h
      · obtain ⟨rfl, rfl⟩ := Prod.mk.inj h
        rw [List.take_zero, Nat.zero_add, List.nil_append, replicate_zeros_append]
      · obtain ⟨rfl, rfl⟩ := Prod.mk.inj h
        rw [List.take_succ_cons, Nat.add_right_comm, List.drop_succ_cons, List.cons_append,
          List.cons_append, ih hlater]

end Zeros

/-- The two groups of an IPv4 address, put together from its bytes. -/
theorem ipv4Groups_halves (high low : UInt16) :
    ipv4Groups ⟨(high / 0x100).toUInt8, high.toUInt8, (low / 0x100).toUInt8, low.toUInt8⟩ =
      [high, low] := by
  have := high.toNat_lt
  have := low.toNat_lt
  simp [ipv4Groups, ← UInt16.toNat_inj]
  omega

variable {address : Ipv6} {ipv4 : Ipv4}

theorem ofGroups?_groups (address : Ipv6) : ofGroups? address.groups = some address := by
  rw [ofGroups?, dif_pos address.length_groups]

theorem groups_of_mapped? (h : address.mapped? = some ipv4) :
    address.groups = List.replicate 5 0 ++ [0xFFFF] ++ ipv4Groups ipv4 := by
  unfold mapped? at h
  split at h
  next high low hgroups =>
      obtain rfl := Option.some.inj h
      rw [hgroups, ipv4Groups_halves]
      rfl
  · simp at h

/-- An address in the IPv4 form is not taken for a group. -/
theorem group?_toText (ipv4 : Ipv4) : group? ipv4.toText = none := by
  have hpoint : '.' ∈ ipv4.toText := by simp [Ipv4.toText]
  have hvalue : Text.hexValue? ipv4.toText = none := by
    rw [Option.eq_none_iff_forall_ne_some]
    intro n hn
    exact absurd (Text.isSome_of_mem_digits hn '.' hpoint) (by decide)
  rw [group?, hvalue, Option.map_none, ite_self]

theorem sideGroups?_mapped (ipv4 : Ipv4) :
    sideGroups? true ("ffff:".toList ++ ipv4.toText) = some (0xFFFF :: ipv4Groups ipv4) := by
  have hpieces : ("ffff:".toList ++ ipv4.toText).splitOn ':' =
      ["ffff".toList, ipv4.toText] := by
    have hcolon : ∀ piece ∈ ["ffff".toList, ipv4.toText], ':' ∉ piece := by
      simpa using ipv4.not_mem_toText rfl (by decide)
    have hjoined : "ffff:".toList ++ ipv4.toText =
        [':'].intercalate ["ffff".toList, ipv4.toText] := by
      rw [List.intercalate_cons_cons, List.intercalate_singleton]
      rfl
    rw [hjoined]
    exact List.splitOn_intercalate ':' hcolon (List.cons_ne_nil _ _)
  have hfront : group? "ffff".toList = some 0xFFFF := by decide
  rw [sideGroups?, if_neg (by simp), hpieces]
  simp only [pieceGroups?, hfront, group?_toText, Ipv4.ofText?_toText]
  rfl

/-- Behind a gap of five groups and the mark, the last two groups are given in the IPv4
form. -/
theorem ofText?_mapped (h : address.mapped? = some ipv4) :
    ofText? ("::ffff:".toList ++ ipv4.toText) = some address := by
  have hgap : splitGap? ("::ffff:".toList ++ ipv4.toText) =
      some ([], "ffff:".toList ++ ipv4.toText) := rfl
  have hhead : sideGroups? false [] = some [] := rfl
  have hgroups := groups_of_mapped? h
  rw [ofText?, hgap]
  simp only [hhead, sideGroups?_mapped, Option.bind_eq_bind, Option.bind_some]
  rw [if_pos (by simp [ipv4Groups])]
  have hwhole : [] ++ List.replicate (8 - (([] : List UInt16).length +
      (0xFFFF :: ipv4Groups ipv4).length)) 0 ++ 0xFFFF :: ipv4Groups ipv4 = address.groups := by
    rw [hgroups]
    rfl
  rw [hwhole]
  exact ofGroups?_groups address

/-- The groups that are left out are as many as are missing. -/
theorem ofText?_gap {start length : ℕ} (hlength : 1 < length)
    (hsplit : address.groups.take start ++ List.replicate length 0 ++
      address.groups.drop (start + length) = address.groups) :
    ofText? (groupsText (address.groups.take start) ++ "::".toList ++
      groupsText (address.groups.drop (start + length))) = some address := by
  have hcount := (congrArg List.length hsplit).trans address.length_groups
  generalize address.groups.take start = head, address.groups.drop (start + length) = tail
    at hsplit hcount ⊢
  simp only [List.length_append, List.length_replicate] at hcount
  have hgap : splitGap? (groupsText head ++ "::".toList ++ groupsText tail) =
      some (groupsText head, groupsText tail) := by
    rw [List.append_assoc, splitGap?_groupsText_append]
    simp [splitGap?]
  have hmissing : 8 - (head.length + tail.length) = length := by omega
  rw [ofText?, hgap]
  simp only [sideGroups?_groupsText, Option.bind_eq_bind, Option.bind_some]
  rw [if_pos (by omega), hmissing, hsplit]
  exact ofGroups?_groups address

theorem ofText?_groupsText (address : Ipv6) :
    ofText? (groupsText address.groups) = some address := by
  have hgap : splitGap? (groupsText address.groups) = none := by
    simpa [splitGap?] using splitGap?_groupsText_append address.groups []
  rw [ofText?, hgap]
  simp [sideGroups?_groupsText, ofGroups?_groups]

/-- The characters in which an address is written. -/
def IsAddressChar (c : Char) : Prop :=
  (Text.hexDigit? c).isSome ∨ c = ':' ∨ c = '.'

instance : DecidablePred IsAddressChar := fun _ => inferInstanceAs (Decidable (_ ∨ _))

theorem isAddressChar_of_isDigit {c : Char} (h : c.isDigit) : IsAddressChar c :=
  Or.inl (by rw [Text.hexDigit?, if_pos h]; rfl)

theorem isAddressChar_of_mem_groupsText {groups : List UInt16} {c : Char}
    (h : c ∈ groupsText groups) : IsAddressChar c := by
  induction groups with
  | nil => simp [groupsText] at h
  | cons group groups ih =>
      cases groups with
      | nil =>
          rw [groupsText, List.map_singleton, List.intercalate_singleton] at h
          exact Or.inl (Text.isSome_of_mem_hexadecimal h)
      | cons next groups =>
          rw [groupsText_cons_cons, List.mem_append, List.mem_cons] at h
          rcases h with hgroup | hcolon | hgroups
          · exact Or.inl (Text.isSome_of_mem_hexadecimal hgroup)
          · exact Or.inr (Or.inl hcolon)
          · exact ih hgroups

theorem isAddressChar_of_mem_toText {c : Char} (h : c ∈ address.toText) : IsAddressChar c := by
  rw [toText] at h
  split at h
  next ipv4 _ =>
      rcases List.mem_append.mp h with hfront | hipv4
      · have hall : "::ffff:".toList.all fun d => (Text.hexDigit? d).isSome || d = ':' := by decide
        have hc := List.all_eq_true.mp hall c hfront
        rw [Bool.or_eq_true, decide_eq_true_eq] at hc
        exact hc.imp_right Or.inl
      · exact (Ipv4.isDigit_or_eq_of_mem_toText hipv4).elim isAddressChar_of_isDigit
          fun hpoint => Or.inr (Or.inr hpoint)
  next =>
      split at h
      next start length _ =>
      split at h
      next =>
          rw [List.mem_append, List.mem_append] at h
          rcases h with (hhead | hcolons) | htail
          · exact isAddressChar_of_mem_groupsText hhead
          · have hcolon : c = ':' := List.eq_of_mem_replicate (n := 2) hcolons
            exact Or.inr (Or.inl hcolon)
          · exact isAddressChar_of_mem_groupsText htail
      next => exact isAddressChar_of_mem_groupsText h

/-- The canonical text of an address stands for the address. -/
theorem ofText?_toText (address : Ipv6) : ofText? address.toText = some address := by
  rw [toText]
  split
  next ipv4 hmapped => exact ofText?_mapped hmapped
  next =>
      split
      next start length hzeros =>
      split
      next hlength => exact ofText?_gap hlength (longestZeros_split hzeros)
      next => exact ofText?_groupsText address

end ReceiptNotes.Ipv6
