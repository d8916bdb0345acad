import QuicWorkbench.Lib.Hex
import QuicWorkbench.Network.Spec

/-!
# Addresses and ranges as text

How the JSON of a network graph writes addresses with a network prefix and the destinations of routes: in CIDR syntax. The
addresses themselves are read by the standard library, whose parser is followed here function by function. It goes through
the bytes of the text, of which it accepts ASCII ones only; so it may as well go through the characters.
-/

namespace QuicWorkbench

/-! ### The parser of the standard library -/

/-- Takes from the front of the input. Where it fails, the input stays as it was (`read_atomically`). -/
abbrev AddrReader := StateT (List Char) Option

namespace AddrReader

/-- `char::to_digit`, for a radix of at most 16. -/
def toDigit (radix : Nat) (c : Char) : Option Nat := (Hex.digitVal c).filter (· < radix)

def readGivenChar (target : Char) : AddrReader Unit
  | [] => none
  | c :: cs => if c = target then some ((), cs) else none

/-- The separator comes before every element but the first. -/
def readSeparator {α : Type} (sep : Char) (index : Nat) (inner : AddrReader α) : AddrReader α := do
  if 0 < index then readGivenChar sep
  inner

/-- The loop of `read_number`: the number, how many digits it has, and what is left. -/
def readDigits (radix maxDigits : Nat) : Nat → Nat → List Char → Option (Nat × Nat × List Char)
  | result, digitCount, [] => some (result, digitCount, [])
  | result, digitCount, c :: cs =>
    match toDigit radix c with
    | none => some (result, digitCount, c :: cs)
    | some digit =>
      if maxDigits < digitCount + 1 then none
      else readDigits radix maxDigits (result * radix + digit) (digitCount + 1) cs

/-- A number of a type with `size` values. -/
def readNumber (radix maxDigits : Nat) (allowZeroPrefix : Bool) (size : Nat) : AddrReader Nat := fun cs => do
  let hasLeadingZero := cs.head? = some '0'
  let (result, digitCount, rest) ← readDigits radix maxDigits 0 0 cs
  if digitCount = 0 then none
  else if !allowZeroPrefix ∧ hasLeadingZero ∧ 1 < digitCount then none
  else if result < size then some (result, rest) else none

/-- The word of the groups, the most significant one first. -/
def ofGroups (groupSize w : Nat) (groups : List Nat) : BitVec w :=
  .ofNat w (groups.foldl (fun word group => word * groupSize + group) 0)

def readIpv4Addr : AddrReader (BitVec 32) := do
  -- an octet with a leading zero could be meant to be octal
  let one ← readSeparator '.' 0 (readNumber 10 3 false 256)
  let two ← readSeparator '.' 1 (readNumber 10 3 false 256)
  let three ← readSeparator '.' 2 (readNumber 10 3 false 256)
  let four ← readSeparator '.' 3 (readNumber 10 3 false 256)
  return ofGroups 256 32 [one, two, three, four]

/-- Up to `limit` groups of an IPv6 address from the `i`-th on, and whether they end with an embedded IPv4 address. -/
def readGroups (limit : Nat) : Nat → Nat → List Char → (List Nat × Bool) × List Char
  | 0, _, cs => (([], false), cs)
  | remaining + 1, i, cs =>
    -- there must be at least two groups left for an IPv4 address
    match (if i < limit - 1 then (readSeparator ':' i readIpv4Addr).run cs else none) with
    | some (v4Addr, cs) => (([v4Addr.toNat / 65536, v4Addr.toNat % 65536], true), cs)
    | none =>
      match (readSeparator ':' i (readNumber 16 4 true 65536)).run cs with
      | none => (([], false), cs)
      | some (group, cs) =>
        let read := readGroups limit remaining (i + 1) cs
        ((group :: read.1.1, read.1.2), read.2)

def readIpv6Addr : AddrReader (BitVec 128) := fun cs =>
  let ((head, headIpv4), cs) := readGroups 8 8 0 cs
  if head.length = 8 then some (ofGroups 65536 128 head, cs)
  else if headIpv4 then none
  else do
    let (_, cs) ← (readGivenChar ':').run cs
    let (_, cs) ← (readGivenChar ':').run cs
    -- the `::` stands for at least one group
    let limit := 8 - (head.length + 1)
    let ((tail, _), cs) := readGroups limit limit 0 cs
    some (ofGroups 65536 128 (head ++ List.replicate (8 - head.length - tail.length) 0 ++ tail), cs)

def readIpAddr : AddrReader IpAddr :=
  (IpAddr.v4 <$> readIpv4Addr) <|> (IpAddr.v6 <$> readIpv6Addr)

/-- All of the input has to be read. -/
def parseWith {α : Type} (inner : AddrReader α) (cs : List Char) : Option α :=
  match inner.run cs with
  | some (a, []) => some a
  | _ => none

end AddrReader

def IpAddr.fromStr (cs : List Char) : Option IpAddr := AddrReader.readIpAddr.parseWith cs

/-- The loop of `u8::from_str`: every step can overflow. -/
def addDigitsU8 (result : Nat) : List Char → Option Nat
  | [] => some result
  | c :: cs => (AddrReader.toDigit 10 c).bind fun digit =>
    if result * 10 + digit < 256 then addDigitsU8 (result * 10 + digit) cs else none

/-- Leading zeros and a plus sign are fine. -/
def u8FromStr : List Char → Option Nat
  | [] => none
  | '+' :: cs => if cs = [] then none else addDigitsU8 0 cs
  | cs => addDigitsU8 0 cs

/-! ### CIDR syntax -/

inductive CidrError
  | emptyString
  | invalidIpAddress
  | onlyIpv4Supported
  | invalidNetworkPrefix
  | networkPrefixZero
  | networkPrefixTooHigh
  | trailingCharacters
  deriving DecidableEq

def CidrError.message : CidrError → String
  | .emptyString => "empty string"
  | .invalidIpAddress => "invalid ip address in ip range"
  | .onlyIpv4Supported => "only IPv4 supported at the moment"
  | .invalidNetworkPrefix => "the provided network prefix is not a valid unsigned integer"
  | .networkPrefixZero => "network prefix cannot be 0"
  | .networkPrefixTooHigh => "network prefix cannot be higher than 32"
  | .trailingCharacters => "ip range contains trailing characters"

/-- `Ipv4Addr`'s `Display`. -/
def displayIpv4 (address : BitVec 32) : List Char :=
  Nat.toDigits 10 (address.toNat / 16777216) ++ '.' :: (Nat.toDigits 10 (address.toNat / 65536 % 256) ++ '.' ::
    (Nat.toDigits 10 (address.toNat / 256 % 256) ++ '.' :: Nat.toDigits 10 (address.toNat % 256)))

namespace Ipv4Cidr

def display (c : Ipv4Cidr) : String :=
  String.ofList (displayIpv4 c.address ++ '/' :: Nat.toDigits 10 c.networkPrefix)

def fromStr (s : String) : Except CidrError Ipv4Cidr := do
  let parts := s.toList.splitOn '/'
  let first ← parts[0]?.elim (.error .emptyString) .ok
  match ← (IpAddr.fromStr first).elim (.error .invalidIpAddress) .ok with
  | .v6 _ => .error .onlyIpv4Supported
  | .v4 baseIp =>
    -- a missing network prefix is interpreted as /32
    let networkPrefix ← (u8FromStr (parts[1]?.getD ['3', '2'])).elim (.error .invalidNetworkPrefix) .ok
    if networkPrefix = 0 then .error .networkPrefixZero
    else if 32 < networkPrefix then .error .networkPrefixTooHigh
    else if parts[2]?.isSome then .error .trailingCharacters
    else .ok { address := baseIp, networkPrefix }

end Ipv4Cidr

/-- A text that is not accepted, or a panic while the range is computed. -/
inductive IpRange.FromStrStop
  | error (e : CidrError)
  | panic (p : MaskPanic)
  deriving DecidableEq

def IpRange.fromStr (s : String) : Except IpRange.FromStrStop IpRange := do
  let addr ← (Ipv4Cidr.fromStr s).mapError .error
  (IpRange.fromCidr addr).mapError .panic

end QuicWorkbench
