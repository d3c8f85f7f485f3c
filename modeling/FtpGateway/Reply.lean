import FtpGateway.Config

/-!
# Passive replies

`protocol/reply.rs`: the 227 and 229 replies the gateway makes to its clients
and the parsers it applies to a backend's. The parsers look for the first
parenthesised group anywhere in the line; the reply code is not looked at.
-/

namespace FtpGateway

open Str

def decimal (n : Nat) : Text := Nat.toDigits 10 n

/-- The reply to `PASV`. -/
def pasvReply (ip : Ipv4Addr) (port : UInt16) : Text :=
  let p1 := (port >>> 8).toUInt8
  let p2 := (port &&& 0xFF).toUInt8
  "227 Entering Passive Mode (".toList ++ decimal ip.a.toNat ++ [','] ++ decimal ip.b.toNat
    ++ [','] ++ decimal ip.c.toNat ++ [','] ++ decimal ip.d.toNat ++ [',']
    ++ decimal p1.toNat ++ [','] ++ decimal p2.toNat ++ ").\r\n".toList

/-- The reply to `EPSV`, which carries no address. -/
def epsvReply (port : UInt16) : Text :=
  "229 Entering Extended Passive Mode (|||".toList ++ decimal port.toNat ++ "|).\r\n".toList

/-- `str::parse::<u16>`: an optional plus sign and at least one digit. -/
def parseU16 (t : Text) : Option UInt16 :=
  let digits := match t with
    | '+' :: ds => ds
    | ds => ds
  if digits ≠ [] ∧ digits.all Char.isDigit then
    let n := digits.foldl (fun acc c => acc * 10 + (c.toNat - 48)) 0
    if n < 65536 then some (UInt16.ofNat n) else none
  else none

/-- The text between the first `(` and the next `)`. -/
def inParens (line : Text) : Option Text :=
  (splitOnce '(' line).bind fun (_, rest) => (splitOnce ')' rest).map (·.1)

/-- `char::is_ascii_graphic`. -/
def isAsciiGraphic (c : Char) : Bool := '!' ≤ c && c ≤ '~'

def parseEpsvReply (line : Text) : Option UInt16 := do
  let inner ← inParens line
  let delimiter ← inner.head?
  if isAsciiGraphic delimiter then
    match inner.splitOnP (· == delimiter) with
    | [[], [], [], port, []] =>
        let port ← parseU16 port
        if port ≠ 0 then some port else none
    | _ => none
  else none

def parsePasvReply (line : Text) : Option (Ipv4Addr × UInt16) := do
  let inner ← inParens line
  let numbers ← (inner.splitOnP (· == ',')).mapM fun part => parseU16 (trim part)
  match numbers with
  | [o1, o2, o3, o4, p1, p2] =>
      if [o1, o2, o3, o4, p1, p2].any fun n => n > 255 then none
      else
        some (⟨o1.toUInt8, o2.toUInt8, o3.toUInt8, o4.toUInt8⟩, (p1 <<< 8) ||| p2)
  | _ => none

example : parsePasvReply (pasvReply ⟨192, 168, 1, 1⟩ 51200) = some (⟨192, 168, 1, 1⟩, 51200) := by
  decide

example : parseEpsvReply "229 ok (!!!2121!)".toList = some 2121 := by
  decide

end FtpGateway
