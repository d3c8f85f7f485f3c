import FtpGateway.Config

/-!
# Addresses as text

`FromStr` of the standard library's `Ipv4Addr` and `IpAddr`, which the configuration
is read with: a reader takes what it understands off the front of the text, and a
text is an address if nothing is left of it.
-/

namespace FtpGateway

open Str

namespace AddrText

/-- A value off the front of a text, and the rest. -/
abbrev Reader (α : Type) := Text → Option (α × Text)

/-- `char::to_digit`. -/
def toDigit (radix : Nat) (c : Char) : Option Nat :=
  let value :=
    if '0' ≤ c ∧ c ≤ '9' then c.toNat - 48
    else if 'a' ≤ c ∧ c ≤ 'f' then c.toNat - 87
    else if 'A' ≤ c ∧ c ≤ 'F' then c.toNat - 55
    else radix
  if value < radix then some value else none

def readDigits (radix : Nat) : Text → List Nat × Text
  | [] => ([], [])
  | c :: t =>
      match toDigit radix c with
      | some d => (d :: (readDigits radix t).1, (readDigits radix t).2)
      | none => ([], c :: t)

/-- `read_number`, for a type of `bound` values. -/
def readNumber (radix bound maxDigits : Nat) (allowZeroPrefix : Bool) : Reader Nat := fun t =>
  let (digits, rest) := readDigits radix t
  let value := digits.foldl (fun acc d => acc * radix + d) 0
  if digits = [] ∨ maxDigits < digits.length then none
  else if !allowZeroPrefix && digits.head? = some 0 && 1 < digits.length then none
  else if value < bound then some (value, rest) else none

/-- `read_separator`: every item but the first is after a separator. -/
def readSeparator {α : Type} (separator : Char) (first : Bool) (read : Reader α) : Reader α
  | t => if first then read t else
      match t with
      | c :: t => if c = separator then read t else none
      | [] => none

def readIpv4Addr : Reader Ipv4Addr := fun t => do
  let octet := readNumber 10 256 3 false
  let (a, t) ← readSeparator '.' true octet t
  let (b, t) ← readSeparator '.' false octet t
  let (c, t) ← readSeparator '.' false octet t
  let (d, t) ← readSeparator '.' false octet t
  return (⟨.ofNat a, .ofNat b, .ofNat c, .ofNat d⟩, t)

/-- `read_groups` with `left` of its `limit` groups to go, and whether the last of them
were an IPv4 address. -/
def readGroups (limit : Nat) : Nat → Text → List Nat × Bool × Text
  | 0, t => ([], false, t)
  | left + 1, t =>
      let first := left + 1 = limit
      match (if 1 ≤ left then readSeparator ':' first readIpv4Addr t else none) with
      | some (ip, rest) =>
          ([ip.a.toNat * 256 + ip.b.toNat, ip.c.toNat * 256 + ip.d.toNat], true, rest)
      | none =>
          match readSeparator ':' first (readNumber 16 65536 4 true) t with
          | some (group, rest) =>
              let (groups, ipv4, rest) := readGroups limit left rest
              (group :: groups, ipv4, rest)
          | none => ([], false, t)

def readIpv6Addr : Reader (BitVec 128) := fun t =>
  let bits (groups : List Nat) := BitVec.ofNat 128 (groups.foldl (fun acc g => acc * 65536 + g) 0)
  let (head, ipv4, rest) := readGroups 8 8 t
  if head.length = 8 then some (bits head, rest)
  else if ipv4 then none
  else
    match rest with
    | ':' :: ':' :: rest =>
        let (tail, _, rest) := readGroups (7 - head.length) (7 - head.length) rest
        some (bits (head ++ List.replicate (8 - head.length - tail.length) 0 ++ tail), rest)
    | _ => none

def readIpAddr : Reader IpAddr := fun t =>
  match readIpv4Addr t with
  | some (ip, rest) => some (.v4 ip, rest)
  | none => (readIpv6Addr t).map fun (ip, rest) => (.v6 ip, rest)

/-- The whole text is one value. -/
def parseWith {α : Type} (read : Reader α) (t : Text) : Option α :=
  match read t with
  | some (a, []) => some a
  | _ => none

end AddrText

def parseIpv4Addr (t : Text) : Option Ipv4Addr := AddrText.parseWith AddrText.readIpv4Addr t

def parseIpAddr (t : Text) : Option IpAddr := AddrText.parseWith AddrText.readIpAddr t

end FtpGateway
