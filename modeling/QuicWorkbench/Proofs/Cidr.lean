import QuicWorkbench.Lib.BitPrefix
import QuicWorkbench.Lib.Decimal
import QuicWorkbench.Lib.Except
import QuicWorkbench.Network.Cidr

/-!
# Destinations of routes

A text is accepted as a range if it is an address as it is displayed, with or without a prefix length between 1 and 32
(`fromStr_eq_ok_iff`), and its mask can then be computed. The range has exactly the IPv4 addresses that agree with the given
one on the prefix, so a route leads to these (`nextHop_iff_agree`).
-/

namespace QuicWorkbench
open AddrReader Decimal

/-! ### Digits -/

/-- No digit follows. -/
def Stops (rest : List Char) : Prop := ∀ c ∈ rest.head?, c.isDigit = false

theorem toDigit_ten (c : Char) : toDigit 10 c = if c.isDigit then some (c.toNat - 48) else none := by
  have hiff : '0' ≤ c ∧ c ≤ '9' ↔ c.isDigit := Char.isDigit_iff_toNat.symm
  by_cases hdigit : c.isDigit
  · have hlt := digit_lt hdigit
    rw [toDigit, Hex.digitVal, if_pos (hiff.2 hdigit), if_pos hdigit]
    simp [hlt]
  · rw [toDigit, Hex.digitVal, if_neg (hiff.not.2 hdigit), if_neg hdigit]
    -- a letter has a value of at least 10
    split_ifs with hlower hupper
    · have hge : 97 ≤ c.toNat := hlower.1
      have hvalue : ¬c.toNat - 87 < 10 := by omega
      simpa using hvalue
    · have hge : 65 ≤ c.toNat := hupper.1
      have hvalue : ¬c.toNat - 55 < 10 := by omega
      simpa using hvalue
    · rfl

section
variable {max acc count n k : Nat} {c : Char} {cs ds rest : List Char}

theorem stops_cons (h : c.isDigit = false) : Stops (c :: cs) := by
  simpa [Stops] using h

theorem Stops.eq_nil (h : Stops (ds ++ rest)) (hds : ∀ c ∈ ds, c.isDigit) : ds = [] := by
  cases ds with
  | nil => rfl
  | cons d ds =>
    have hdigit := hds d (List.mem_cons_self ..)
    rw [h d rfl] at hdigit
    cases hdigit

theorem ofDigitChars_cons : Nat.ofDigitChars 10 (c :: ds) acc = Nat.ofDigitChars 10 ds (acc * 10 + (c.toNat - 48)) := by
  rw [Nat.ofDigitChars_cons, Nat.mul_comm]
  rfl

/-- The number `n` of the digits at the front, how many they are, and what is left. -/
def DigitsRead (max acc count : Nat) (cs : List Char) (n k : Nat) (rest : List Char) : Prop :=
  ∃ ds, cs = ds ++ rest ∧ (∀ c ∈ ds, c.isDigit) ∧ Stops rest ∧ Nat.ofDigitChars 10 ds acc = n ∧ count + ds.length = k ∧
    k ≤ max

theorem DigitsRead.of_stops (h : Stops cs) (hcount : count ≤ max) :
    DigitsRead max acc count cs n k rest ↔ acc = n ∧ count = k ∧ cs = rest := by
  constructor
  · rintro ⟨ds, rfl, hds, -, hn, hk, -⟩
    obtain rfl := h.eq_nil hds
    exact ⟨Nat.ofDigitChars_nil.symm.trans hn, hk, rfl⟩
  · rintro ⟨rfl, rfl, rfl⟩
    exact ⟨[], rfl, by simp, h, Nat.ofDigitChars_nil, rfl, hcount⟩

theorem DigitsRead.cons (h : c.isDigit) : DigitsRead max acc count (c :: cs) n k rest ↔
    count < max ∧ DigitsRead max (acc * 10 + (c.toNat - 48)) (count + 1) cs n k rest := by
  constructor
  · rintro ⟨ds, hcs, hds, hstops, hn, hk, hle⟩
    cases ds with
    | nil =>
      obtain rfl : c :: cs = rest := hcs
      simp [Stops, h] at hstops
    | cons d ds =>
      obtain ⟨rfl, rfl⟩ := List.cons.inj hcs
      rw [List.length_cons] at hk
      rw [ofDigitChars_cons] at hn
      exact ⟨by omega, ds, rfl, (List.forall_mem_cons.1 hds).2, hstops, hn, by omega, hle⟩
  · rintro ⟨-, ds, rfl, hds, hstops, hn, hk, hle⟩
    refine ⟨c :: ds, rfl, List.forall_mem_cons.2 ⟨h, hds⟩, hstops, ofDigitChars_cons.trans hn, ?_, hle⟩
    rw [List.length_cons]
    omega

theorem readDigits_of_stops (h : Stops cs) (hcount : count ≤ max) :
    readDigits 10 max acc count cs = some (n, k, rest) ↔ DigitsRead max acc count cs n k rest := by
  have hread : readDigits 10 max acc count cs = some (acc, count, cs) := by
    cases cs with
    | nil => rfl
    | cons c cs =>
      have hdigit : ¬c.isDigit := by simp [h c rfl]
      rw [readDigits, toDigit_ten, if_neg hdigit]
  rw [hread, DigitsRead.of_stops h hcount, Option.some.injEq, Prod.mk.injEq, Prod.mk.injEq]

theorem readDigits_eq_some (hcount : count ≤ max) :
    readDigits 10 max acc count cs = some (n, k, rest) ↔ DigitsRead max acc count cs n k rest := by
  induction cs generalizing acc count with
  | nil => exact readDigits_of_stops (by simp [Stops]) hcount
  | cons c cs ih =>
    by_cases hdigit : c.isDigit
    · rw [readDigits, toDigit_ten, if_pos hdigit, DigitsRead.cons hdigit]
      show (if max < count + 1 then none else readDigits 10 max (acc * 10 + (c.toNat - 48)) (count + 1) cs) = _ ↔ _
      split_ifs with hmax
      · simp [Nat.not_lt.2 (Nat.le_of_lt_succ hmax)]
      · have hlt : count < max := Nat.lt_of_succ_le (Nat.le_of_not_lt hmax)
        rw [ih hlt, and_iff_right hlt]
    · exact readDigits_of_stops (stops_cons (by simpa using hdigit)) hcount

end

theorem readOctet_eq_some {n : Nat} {cs rest : List Char} :
    readNumber 10 3 false 256 cs = some (n, rest) ↔ n < 256 ∧ Stops rest ∧ cs = Nat.toDigits 10 n ++ rest := by
  simp only [readNumber, Option.bind_eq_bind, Option.bind_eq_some_iff, Prod.exists]
  constructor
  · rintro ⟨n', k, rest', hread, h⟩
    obtain ⟨ds, rfl, hds, hstops, hn, hk, -⟩ := (readDigits_eq_some (Nat.zero_le 3)).1 hread
    split_ifs at h with hzero hlead hlt
    obtain ⟨rfl, rfl⟩ := Prod.mk.inj (Option.some.inj h)
    have hne : ds ≠ [] := by
      rintro rfl
      exact hzero hk.symm
    have hcanonical : ds = Nat.toDigits 10 n' := by
      refine Denotes.eq_toDigits ⟨hne, hds, hn⟩ fun hhead => ?_
      rw [List.head?_append_of_ne_nil _ hne] at hlead
      have hpos := List.length_pos_iff.2 hne
      have hsmall : ¬1 < k := fun hlt => hlead ⟨rfl, hhead, hlt⟩
      omega
    exact ⟨hlt, hstops, by rw [hcanonical]⟩
  · rintro ⟨hlt, hstops, rfl⟩
    have hden := denotes_toDigits n
    have hpos : 0 < (Nat.toDigits 10 n).length := Nat.length_toDigits_pos
    have hlen : (Nat.toDigits 10 n).length ≤ 3 := (Nat.length_toDigits_le_iff (by decide) (by decide)).2 (by omega)
    refine ⟨n, (Nat.toDigits 10 n).length, rest,
      (readDigits_eq_some (Nat.zero_le 3)).2 ⟨_, rfl, hden.isDigit, hstops, hden.value, Nat.zero_add _, hlen⟩, ?_⟩
    rw [if_neg (by omega), if_neg, if_pos hlt]
    rintro ⟨-, hhead, hlong⟩
    rw [List.head?_append_of_ne_nil _ hden.ne_nil] at hhead
    rw [eq_zero_of_head hhead] at hlong
    simp at hlong

/-! ### Addresses -/

theorem readSeparator_eq_some {α : Type} {sep : Char} {i : Nat} {inner : AddrReader α} {cs rest : List Char} {a : α}
    (hi : 0 < i) : (readSeparator sep i inner).run cs = some (a, rest) ↔
      ∃ cs', cs = sep :: cs' ∧ inner.run cs' = some (a, rest) := by
  simp only [readSeparator, if_pos hi, StateT.run_bind, Option.bind_eq_bind, Option.bind_eq_some_iff, Prod.exists]
  cases cs with
  | nil => simp [StateT.run, readGivenChar]
  | cons c cs =>
    by_cases hc : c = sep
    · simp [StateT.run, readGivenChar, hc]
    · simp [StateT.run, readGivenChar, hc]

theorem ofGroups_octets {one two three four : Nat} (h₁ : one < 256) (h₂ : two < 256) (h₃ : three < 256) (h₄ : four < 256) :
    (ofGroups 256 32 [one, two, three, four]).toNat = one * 16777216 + two * 65536 + three * 256 + four := by
  rw [ofGroups, BitVec.toNat_ofNat]
  simp only [List.foldl_cons, List.foldl_nil]
  omega

theorem displayIpv4_ofGroups {one two three four : Nat} (h₁ : one < 256) (h₂ : two < 256) (h₃ : three < 256)
    (h₄ : four < 256) : displayIpv4 (ofGroups 256 32 [one, two, three, four]) =
      Nat.toDigits 10 one ++ '.' :: (Nat.toDigits 10 two ++ '.' :: (Nat.toDigits 10 three ++ '.' :: Nat.toDigits 10 four)) := by
  rw [displayIpv4, ofGroups_octets h₁ h₂ h₃ h₄]
  congr 2
  · omega
  · congr 2
    · omega
    · congr 2
      · omega
      · congr 1
        omega

theorem ofGroups_of_address (a : BitVec 32) :
    ofGroups 256 32 [a.toNat / 16777216, a.toNat / 65536 % 256, a.toNat / 256 % 256, a.toNat % 256] = a := by
  have hlt := a.isLt
  refine BitVec.eq_of_toNat_eq ?_
  rw [ofGroups_octets (by omega) (by omega) (by omega) (by omega)]
  omega

theorem displayIpv4_append (a : BitVec 32) (rest : List Char) : displayIpv4 a ++ rest =
    Nat.toDigits 10 (a.toNat / 16777216) ++ '.' :: (Nat.toDigits 10 (a.toNat / 65536 % 256) ++ '.' ::
      (Nat.toDigits 10 (a.toNat / 256 % 256) ++ '.' :: (Nat.toDigits 10 (a.toNat % 256) ++ rest))) := by
  simp [displayIpv4]

theorem readIpv4Addr_eq_some {a : BitVec 32} {cs rest : List Char} :
    readIpv4Addr.run cs = some (a, rest) ↔ Stops rest ∧ cs = displayIpv4 a ++ rest := by
  have hfirst : ∀ cs n rest, (readSeparator '.' 0 (readNumber 10 3 false 256)).run cs = some (n, rest) ↔
      n < 256 ∧ Stops rest ∧ cs = Nat.toDigits 10 n ++ rest := fun _ _ _ => readOctet_eq_some
  have hnext : ∀ i, 0 < i → ∀ cs n rest, (readSeparator '.' i (readNumber 10 3 false 256)).run cs = some (n, rest) ↔
      n < 256 ∧ Stops rest ∧ cs = '.' :: (Nat.toDigits 10 n ++ rest) := by
    intro i hi cs n rest
    rw [readSeparator_eq_some hi]
    constructor
    · rintro ⟨cs', rfl, h⟩
      obtain ⟨hlt, hstops, rfl⟩ := readOctet_eq_some.1 h
      exact ⟨hlt, hstops, rfl⟩
    · rintro ⟨hlt, hstops, rfl⟩
      exact ⟨_, rfl, readOctet_eq_some.2 ⟨hlt, hstops, rfl⟩⟩
  simp only [readIpv4Addr, StateT.run_bind, StateT.run_pure, Option.bind_eq_bind, Option.bind_eq_some_iff, Prod.exists,
    hfirst, hnext 1 (by decide), hnext 2 (by decide), hnext 3 (by decide)]
  constructor
  · rintro ⟨one, _, ⟨h₁, -, rfl⟩, two, _, ⟨h₂, -, rfl⟩, three, _, ⟨h₃, -, rfl⟩, four, _, ⟨h₄, hstops, rfl⟩, h⟩
    obtain ⟨rfl, rfl⟩ := Prod.mk.inj (Option.some.inj h)
    exact ⟨hstops, by simp [displayIpv4_ofGroups h₁ h₂ h₃ h₄]⟩
  · rintro ⟨hstops, rfl⟩
    have hlt := a.isLt
    have hdot : ∀ cs, Stops ('.' :: cs) := fun _ => stops_cons (by decide)
    exact ⟨a.toNat / 16777216, _, ⟨by omega, hdot _, displayIpv4_append a rest⟩,
      a.toNat / 65536 % 256, _, ⟨by omega, hdot _, rfl⟩,
      a.toNat / 256 % 256, _, ⟨by omega, hdot _, rfl⟩,
      a.toNat % 256, rest, ⟨by omega, hstops, rfl⟩, by rw [ofGroups_of_address]; rfl⟩

/-- The parser tries an IPv4 address first. What it makes of the rest is never one. -/
theorem readIpAddr_eq_some_v4 {a : BitVec 32} {cs rest : List Char} :
    readIpAddr.run cs = some (.v4 a, rest) ↔ readIpv4Addr.run cs = some (a, rest) := by
  have horElse : readIpAddr.run cs = ((readIpv4Addr.run cs).map fun r => (IpAddr.v4 r.1, r.2)).or
      ((readIpv6Addr.run cs).map fun r => (IpAddr.v6 r.1, r.2)) := by
    show ((IpAddr.v4 <$> readIpv4Addr).run cs <|> (IpAddr.v6 <$> readIpv6Addr).run cs) = _
    rw [Option.or_eq_orElse, StateT.run_map, StateT.run_map]
    rfl
  rw [horElse]
  cases readIpv4Addr.run cs with
  | none => simp
  | some r => simp [Prod.ext_iff]

theorem IpAddr.fromStr_eq_some_v4 {a : BitVec 32} {cs : List Char} :
    IpAddr.fromStr cs = some (.v4 a) ↔ cs = displayIpv4 a := by
  have hall : IpAddr.fromStr cs = some (.v4 a) ↔ readIpAddr.run cs = some (.v4 a, []) := by
    rw [IpAddr.fromStr, parseWith]
    split
    · simp [*]
    · simp_all
  rw [hall, readIpAddr_eq_some_v4, readIpv4Addr_eq_some, List.append_nil]
  exact and_iff_right (by simp [Stops])

/-! ### Prefix lengths -/

theorem addDigitsU8_eq_some {cs : List Char} {acc n : Nat} (hacc : acc < 256) :
    addDigitsU8 acc cs = some n ↔ (∀ c ∈ cs, c.isDigit) ∧ Nat.ofDigitChars 10 cs acc = n ∧ n < 256 := by
  induction cs generalizing acc with
  | nil =>
    rw [addDigitsU8, Option.some.injEq, Nat.ofDigitChars_nil]
    constructor
    · rintro rfl
      exact ⟨by simp, rfl, hacc⟩
    · rintro ⟨-, hn, -⟩
      exact hn
  | cons c cs ih =>
    rw [addDigitsU8, toDigit_ten, ofDigitChars_cons, List.forall_mem_cons]
    by_cases hdigit : c.isDigit
    · rw [if_pos hdigit, Option.bind_some]
      split_ifs with hlt
      · rw [ih hlt, and_iff_right hdigit]
      · -- the number does not get smaller
        have hle := le_ofDigitChars cs (acc * 10 + (c.toNat - 48))
        simp only [false_iff]
        omega
    · simp [hdigit]

theorem u8FromStr_eq_some {cs : List Char} {n : Nat} :
    u8FromStr cs = some n ↔ n < 256 ∧ ∃ ds, (cs = ds ∨ cs = '+' :: ds) ∧ Denotes ds n := by
  have hplus : ('+').isDigit = false := by decide
  constructor
  · intro h
    unfold u8FromStr at h
    split at h
    · cases h
    · split_ifs at h with hne
      obtain ⟨hdigits, hn, hlt⟩ := (addDigitsU8_eq_some (by decide)).1 h
      exact ⟨hlt, _, Or.inr rfl, hne, hdigits, hn⟩
    · rename_i hne _
      obtain ⟨hdigits, hn, hlt⟩ := (addDigitsU8_eq_some (by decide)).1 h
      exact ⟨hlt, _, Or.inl rfl, fun hnil => hne hnil, hdigits, hn⟩
  · rintro ⟨hlt, ds, hcs, hden⟩
    have hread := (addDigitsU8_eq_some (by decide)).2 ⟨hden.isDigit, hden.value, hlt⟩
    rcases hcs with rfl | rfl
    · cases cs with
      | nil => exact absurd rfl hden.ne_nil
      | cons c cs =>
        have hd := hden.isDigit c (List.mem_cons_self ..)
        unfold u8FromStr
        split
        · contradiction
        · rename_i heq
          obtain ⟨rfl, -⟩ := List.cons.inj heq
          rw [hplus] at hd
          cases hd
        · exact hread
    · rw [u8FromStr, if_neg hden.ne_nil, hread]

/-! ### CIDR syntax -/

namespace Ipv4Cidr

/-- The text is the address with the prefix length, which may be left out if it is 32. -/
def WrittenAs (c : Ipv4Cidr) (s : String) : Prop :=
  s.toList = displayIpv4 c.address ∧ c.networkPrefix = 32 ∨
    ∃ ds, (s.toList = displayIpv4 c.address ++ '/' :: ds ∨ s.toList = displayIpv4 c.address ++ '/' :: '+' :: ds) ∧
      Denotes ds c.networkPrefix

theorem fromStr_parts {c : Ipv4Cidr} {s : String} : fromStr s = .ok c ↔
    (s.toList.splitOn '/')[0]? = some (displayIpv4 c.address) ∧
      u8FromStr ((s.toList.splitOn '/')[1]?.getD ['3', '2']) = some c.networkPrefix ∧
      (c.networkPrefix ≠ 0 ∧ c.networkPrefix ≤ 32) ∧ (s.toList.splitOn '/')[2]? = none := by
  simp only [fromStr, Except.bind_eq_ok, Except.elim_eq_ok]
  generalize s.toList.splitOn '/' = parts
  constructor
  · rintro ⟨first, hfirst, baseIp, hbase, h⟩
    cases baseIp with
    | v6 bits => cases h
    | v4 address =>
      obtain ⟨networkPrefix, hlength, h⟩ := Except.bind_eq_ok.1 h
      split_ifs at h with hzero hhigh htrailing
      obtain rfl := Except.ok.inj h
      rw [Except.elim_eq_ok] at hlength
      rw [IpAddr.fromStr_eq_some_v4] at hbase
      exact ⟨hbase ▸ hfirst, hlength, ⟨hzero, Nat.le_of_not_lt hhigh⟩, by simpa using htrailing⟩
  · rintro ⟨hfirst, hlength, ⟨hzero, hhigh⟩, htrailing⟩
    refine ⟨_, hfirst, _, IpAddr.fromStr_eq_some_v4.2 rfl, ?_⟩
    refine Except.bind_eq_ok.2 ⟨_, Except.elim_eq_ok.2 hlength, ?_⟩
    rw [if_neg hzero, if_neg (Nat.not_lt.2 hhigh), if_neg (by simp [htrailing])]

theorem slash_notMem_of_isDigit {ds : List Char} (h : ∀ c ∈ ds, c.isDigit) : '/' ∉ ds :=
  fun hmem => absurd (h _ hmem) (by decide)

theorem slash_notMem_displayIpv4 (a : BitVec 32) : '/' ∉ displayIpv4 a := by
  have hdigits : ∀ n, '/' ∉ Nat.toDigits 10 n := fun n => slash_notMem_of_isDigit (denotes_toDigits n).isDigit
  simp [displayIpv4, hdigits]

/-- The texts that are accepted, and what they stand for. -/
theorem fromStr_eq_ok_iff {c : Ipv4Cidr} {s : String} :
    fromStr s = .ok c ↔ c.WrittenAs s ∧ 1 ≤ c.networkPrefix ∧ c.networkPrefix ≤ 32 := by
  have haddress := slash_notMem_displayIpv4 c.address
  have hdefault : u8FromStr ['3', '2'] = some 32 := by decide
  rw [fromStr_parts]
  constructor
  · rintro ⟨hfirst, hlength, ⟨hzero, hhigh⟩, htrailing⟩
    refine ⟨?_, Nat.pos_of_ne_zero hzero, hhigh⟩
    have hjoin : ['/'].intercalate (s.toList.splitOn '/') = s.toList := List.intercalate_splitOn '/'
    match hparts : s.toList.splitOn '/' with
    | [] => exact absurd hparts (List.splitOn_ne_nil _ _)
    | [first] =>
      rw [hparts] at hfirst hlength hjoin
      obtain rfl : first = displayIpv4 c.address := Option.some.inj hfirst
      rw [List.intercalate_singleton] at hjoin
      exact Or.inl ⟨hjoin.symm, (Option.some.inj (hdefault.symm.trans hlength)).symm⟩
    | [first, second] =>
      rw [hparts] at hfirst hlength hjoin
      obtain rfl : first = displayIpv4 c.address := Option.some.inj hfirst
      obtain ⟨-, ds, hds, hden⟩ := u8FromStr_eq_some.1 hlength
      refine Or.inr ⟨ds, ?_, hden⟩
      have htext : s.toList = displayIpv4 c.address ++ '/' :: second := by
        rw [← hjoin]
        simp
      rcases hds with heq | heq
      · exact Or.inl (by rw [htext]; exact congrArg _ (congrArg _ heq))
      · exact Or.inr (by rw [htext]; exact congrArg _ (congrArg _ heq))
    | _ :: _ :: _ :: _ =>
      rw [hparts] at htrailing
      cases htrailing
  · rintro ⟨hwritten, hpos, hhigh⟩
    have hvalid : c.networkPrefix ≠ 0 ∧ c.networkPrefix ≤ 32 := ⟨Nat.ne_of_gt hpos, hhigh⟩
    have hsecond : ∀ second, '/' ∉ second → u8FromStr second = some c.networkPrefix →
        s.toList = displayIpv4 c.address ++ '/' :: second →
        (s.toList.splitOn '/')[0]? = some (displayIpv4 c.address) ∧
          u8FromStr ((s.toList.splitOn '/')[1]?.getD ['3', '2']) = some c.networkPrefix ∧
          (c.networkPrefix ≠ 0 ∧ c.networkPrefix ≤ 32) ∧ (s.toList.splitOn '/')[2]? = none := by
      intro second hmem hlength htext
      rw [htext, List.splitOn_append_cons_self_of_not_mem haddress, List.splitOn_eq_singleton hmem]
      exact ⟨rfl, hlength, hvalid, rfl⟩
    rcases hwritten with ⟨htext, hlength⟩ | ⟨ds, htext | htext, hden⟩
    · rw [htext, List.splitOn_eq_singleton haddress]
      exact ⟨rfl, hdefault.trans (by rw [hlength]), hvalid, rfl⟩
    · exact hsecond ds (slash_notMem_of_isDigit hden.isDigit)
        (u8FromStr_eq_some.2 ⟨by omega, ds, Or.inl rfl, hden⟩) htext
    · refine hsecond ('+' :: ds) ?_ (u8FromStr_eq_some.2 ⟨by omega, ds, Or.inr rfl, hden⟩) htext
      simp [slash_notMem_of_isDigit hden.isDigit]

theorem fromStr_display {c : Ipv4Cidr} (hpos : 1 ≤ c.networkPrefix) (hle : c.networkPrefix ≤ 32) :
    fromStr c.display = .ok c := by
  refine fromStr_eq_ok_iff.2 ⟨Or.inr ⟨Nat.toDigits 10 c.networkPrefix, Or.inl ?_, denotes_toDigits _⟩, hpos, hle⟩
  rw [display, String.toList_ofList]

end Ipv4Cidr

/-! ### Ranges and routes -/

theorem IpRange.fromCidr_eq {c : Ipv4Cidr} (hpos : 1 ≤ c.networkPrefix) (hle : c.networkPrefix ≤ 32) :
    IpRange.fromCidr c = .ok
      { start := .v4 (c.address &&& BitPrefix.mask 32 (32 - c.networkPrefix))
        endInclusive := .v4 (c.address ||| ~~~BitPrefix.mask 32 (32 - c.networkPrefix)) } := by
  have hshift : 32 - c.networkPrefix < 32 := by omega
  simp [IpRange.fromCidr, subU8, shlU32, hle, hshift, BitPrefix.mask, bind, Except.bind, pure, Except.pure]

-- the cases of `test_ip_range`
example : ∀ case ∈ [("10.0.0.0/24", 0x0a000000, 0x0a0000ff), ("10.0.0.123/24", 0x0a000000, 0x0a0000ff),
    ("10.0.0.0/8", 0x0a000000, 0x0affffff), ("20.0.0.0/12", 0x14000000, 0x140fffff)],
    IpRange.fromStr case.1 = .ok ⟨.v4 case.2.1, .v4 case.2.2⟩ := by
  decide +kernel

/-- A range has no IPv6 addresses, and the IPv4 addresses that agree with the given one on the prefix. -/
theorem IpRange.contains_fromCidr {c : Ipv4Cidr} {range : IpRange} (hpos : 1 ≤ c.networkPrefix)
    (hle : c.networkPrefix ≤ 32) (h : IpRange.fromCidr c = .ok range) (ip : IpAddr) :
    range.contains ip = true ↔ ∃ a, ip = .v4 a ∧ BitPrefix.Agree c.networkPrefix a c.address := by
  rw [IpRange.fromCidr_eq hpos hle] at h
  obtain rfl := Except.ok.inj h
  cases ip with
  | v4 a =>
    have hiff := BitPrefix.between_iff (a := a) (b := c.address) hle
    simpa [IpRange.contains, IpAddr.le] using hiff
  | v6 bits => simp [IpRange.contains, IpAddr.le]

theorem Route.nextHop_eq_some_iff (route : Route) (ip : IpAddr) :
    route.nextHopTowardsDestination ip = some route.next ↔ route.destination.contains ip = true := by
  unfold nextHopTowardsDestination
  split_ifs with h <;> simp [h]

theorem IpRange.fromStr_ne_panic (s : String) (panic : MaskPanic) : IpRange.fromStr s ≠ .error (.panic panic) := by
  intro h
  rcases Except.bind_eq_error.1 h with hcidr | ⟨c, hcidr, hrange⟩
  · obtain ⟨e, -, he⟩ := Except.mapError_eq_error.1 hcidr
    cases he
  · obtain ⟨-, hpos, hle⟩ := Ipv4Cidr.fromStr_eq_ok_iff.1 (Except.mapError_eq_ok.1 hcidr)
    rw [IpRange.fromCidr_eq hpos hle] at hrange
    cases hrange

/-- For every text: the mask of the range is computed without an overflow, and if the text is accepted, a route to the range
leads to the IPv4 addresses that agree with the address of the text on its prefix length. -/
theorem nextHop_iff_agree (s : String) :
    (∀ panic, IpRange.fromStr s ≠ .error (.panic panic)) ∧
      ∀ destination, IpRange.fromStr s = .ok destination → ∃ c : Ipv4Cidr, Ipv4Cidr.fromStr s = .ok c ∧ c.WrittenAs s ∧
        ∀ (route : Route) (ip : IpAddr), route.destination = destination →
          (route.nextHopTowardsDestination ip = some route.next ↔
            ∃ a, ip = .v4 a ∧ BitPrefix.Agree c.networkPrefix a c.address) := by
  refine ⟨IpRange.fromStr_ne_panic s, fun destination h => ?_⟩
  obtain ⟨c, hc, hrange⟩ := Except.bind_eq_ok.1 h
  rw [Except.mapError_eq_ok] at hc hrange
  obtain ⟨hwritten, hpos, hle⟩ := Ipv4Cidr.fromStr_eq_ok_iff.1 hc
  refine ⟨c, hc, hwritten, fun route ip hdestination => ?_⟩
  rw [Route.nextHop_eq_some_iff, hdestination, IpRange.contains_fromCidr hpos hle hrange]

/-- The address of the text has host bits set. -/
theorem nextHop_hostBits :
    ({ destination := ⟨.v4 0x0a000000, .v4 0x0a0000ff⟩, next := .v4 0xc8c8c801, cost := 1 } : Route).nextHopTowardsDestination
      (.v4 0x0a000007) = some (.v4 0xc8c8c801) := by
  have haddr : Ipv4Cidr.fromStr "10.0.0.123/24" = .ok ⟨0x0a00007b, 24⟩ := by decide +kernel
  have hrange : IpRange.fromStr "10.0.0.123/24" = .ok ⟨.v4 0x0a000000, .v4 0x0a0000ff⟩ := by decide +kernel
  obtain ⟨c, hc, -, hiff⟩ := (nextHop_iff_agree "10.0.0.123/24").2 _ hrange
  obtain rfl := Except.ok.inj (haddr.symm.trans hc)
  have hagree : BitPrefix.Agree 24 (0x0a000007 : BitVec 32) 0x0a00007b := by
    unfold BitPrefix.Agree
    decide
  exact (hiff _ _ rfl).2 ⟨_, rfl, hagree⟩

end QuicWorkbench
