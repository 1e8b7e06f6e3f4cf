import FileFerry.Failure.Basic
import FileFerry.Net.HostName
import FileFerry.Text.Decimal
import FileFerry.Text.Utf8

/-! Internet addresses and their texts. Version 6 addresses are shown in the shortest form: lower
case, without leading zeros, and the longest run of at least two zero groups, the first of equals,
left out. A host's address may carry a zone behind a percent sign. -/

set_option autoImplicit false

namespace FileFerry

inductive IpAddress where
  | v4 (a b c d : UInt8)
  | v6 (groups : Vector UInt16 8)
  deriving DecidableEq, Repr

namespace IpAddress

def hexDigit (n : Nat) : Char := if n < 10 then Char.ofNat (48 + n) else Char.ofNat (87 + n)

/-- A number in base sixteen, without leading zeros. -/
def hex (n : Nat) : Text := if n < 16 then [hexDigit n] else hex (n / 16) ++ [hexDigit (n % 16)]

def dotted (a b c d : UInt8) : Text :=
  Text.joinWith ['.'] ([a, b, c, d].map fun x => Decimal.ofNat x.toNat)

/-- The longest run of zeros, at least `best` long: where it begins and how long it is. `at` is the
place of the head of the list, and `run` counts the zeros right before it. -/
def longestZeros : List UInt16 → (place run : Nat) → (best : Nat × Nat) → Nat × Nat
  | [], _, _, best => best
  | g :: rest, place, run, best =>
    if g = 0 then
      let run := run + 1
      longestZeros rest (place + 1) run (if best.2 < run then (place + 1 - run, run) else best)
    else longestZeros rest (place + 1) 0 best

def showGroups (groups : List UInt16) : Text :=
  Text.joinWith [':'] (groups.map fun g => hex g.toNat)

/-- Whether the address stands for one of version 4: ten zero bytes, two of all ones, and the rest. -/
def mapped? (groups : List UInt16) : Option IpAddress :=
  match groups with
  | [0, 0, 0, 0, 0, 0xFFFF, g, h] => some (.v4 (g >>> 8).toUInt8 g.toUInt8 (h >>> 8).toUInt8 h.toUInt8)
  | _ => none

def toText : IpAddress → Text
  | v4 a b c d => dotted a b c d
  | v6 groups =>
    match mapped? groups.toList with
    | some (.v4 a b c d) => text "::ffff:" ++ dotted a b c d
    | _ =>
      let groups := groups.toList
      let (start, size) := longestZeros groups 0 0 (0, 0)
      if 1 < size then
        showGroups (groups.take start) ++ text "::" ++ showGroups (groups.drop (start + size))
      else showGroups groups

/-- A client's address; one of version 4 that came in the guise of version 6 is shown as it is. -/
def unmapped (ip : IpAddress) : IpAddress :=
  match ip with
  | v6 groups => (mapped? groups.toList).getD ip
  | v4 _ _ _ _ => ip

def isV6 : IpAddress → Bool
  | v6 _ => true
  | v4 _ _ _ _ => false

def isLoopback : IpAddress → Bool
  | v4 a _ _ _ => a = 127
  | v6 groups => groups.toList = [0, 0, 0, 0, 0, 0, 0, 1]

def isUnspecified : IpAddress → Bool
  | v4 a b c d => a = 0 ∧ b = 0 ∧ c = 0 ∧ d = 0
  | v6 groups => groups.toList = [0, 0, 0, 0, 0, 0, 0, 0]

/-- One of the four numbers of a version 4 address: no leading zero, at most 255. -/
def octet? (t : Text) : Option UInt8 :=
  if t = [] ∨ 3 < t.length ∨ (1 < t.length ∧ t.head? = some '0') ∨ t.head? = some '+' then none
  else match Decimal.readNat 255 t with
    | .ok n => some (UInt8.ofNat n)
    | .error _ => none

def readV4? (t : Text) : Option IpAddress :=
  match Text.splitAt '.' t with
  | [a, b, c, d] => do some (.v4 (← octet? a) (← octet? b) (← octet? c) (← octet? d))
  | _ => none

def group? (t : Text) : Option UInt16 := do
  if t = [] ∨ 4 < t.length then none
  else
    let digits ← t.mapM Text.hexValue?
    some (UInt16.ofNat (digits.foldl (fun acc d => acc * 16 + d) 0))

/-- Groups between colons; the last two may be written as a version 4 address. -/
def groups? : List Text → Option (List UInt16)
  | [] => some []
  | [last] =>
    match readV4? last with
    | some (.v4 a b c d) =>
      some [a.toUInt16 * 256 + b.toUInt16, c.toUInt16 * 256 + d.toUInt16]
    | _ => (group? last).map fun g => [g]
  | piece :: pieces => do some ((← group? piece) :: (← groups? pieces))

def side? (t : Text) : Option (List UInt16) :=
  if t = [] then some [] else groups? (Text.splitAt ':' t)

def cutAtDouble? : Text → Option (Text × Text)
  | ':' :: ':' :: rest => some ([], rest)
  | [] => none
  | c :: rest => (cutAtDouble? rest).map fun (before, after) => (c :: before, after)

def ofGroups? (groups : List UInt16) : Option IpAddress :=
  if h : groups.length = 8 then some (.v6 ⟨groups.toArray, by simpa using h⟩) else none

def readV6? (t : Text) : Option IpAddress :=
  match cutAtDouble? t with
  | none => (groups? (Text.splitAt ':' t)).bind ofGroups?
  | some (before, after) => do
    let left ← side? before
    let right ← side? after
    if before.contains '.' ∨ 7 < left.length + right.length then none
    else ofGroups? (left ++ List.replicate (8 - left.length - right.length) 0 ++ right)

def ofText? (t : Text) : Option IpAddress :=
  match readV4? t with
  | some ip => some ip
  | none => readV6? t

/-- A digit of a number in base eight, ten or sixteen. -/
def digitIn? (base : Nat) (c : Char) : Option Nat :=
  (Text.hexValue? c).filter (· < base)

def numberIn? (base : Nat) (t : Text) : Option Nat := do
  if t = [] then none
  else
    let digits ← t.mapM (digitIn? base)
    some (digits.foldl (fun acc d => acc * base + d) 0)

/-- A number in base ten, in base eight behind a zero, or in base sixteen behind `0x`. -/
def number? (t : Text) : Option Nat :=
  match t with
  | '0' :: 'x' :: digits | '0' :: 'X' :: digits => numberIn? 16 digits
  | '0' :: digits => if digits = [] then some 0 else numberIn? 8 digits
  | digits => numberIn? 10 digits

/-- The value of several numbers between dots: each but the last is a byte, and the last fills what
is left of four bytes. -/
def joinNumbers? (room : Nat) : List Nat → Option Nat
  | [] => none
  | [last] => if last < Nat.pow 256 room then some last else none
  | n :: rest =>
    match room with
    | 0 | 1 => none
    | room + 1 =>
      if n < 256 then (joinNumbers? room rest).map fun low => n * Nat.pow 256 room + low else none

/-- A version 4 address in fewer than four numbers, or in other bases, such as `127.1`. -/
def readLooseV4? (t : Text) : Option IpAddress := do
  let numbers ← (Text.splitAt '.' t).mapM number?
  let n ← joinNumbers? 4 numbers
  some (.v4 (UInt8.ofNat (n / 16777216)) (UInt8.ofNat (n / 65536)) (UInt8.ofNat (n / 256))
    (UInt8.ofNat n))

end IpAddress

/-- An address of a machine. One of version 6 may hold in one zone of the network only; zone zero
stands for none. -/
structure HostAddress where
  ip : IpAddress
  zone : UInt32
  deriving DecidableEq, Repr

namespace HostAddress

def toText (a : HostAddress) : Text :=
  a.ip.toText ++ if a.zone = 0 then [] else '%' :: Decimal.ofNat a.zone.toNat

def isLinkLocal : IpAddress → Bool
  | .v4 _ _ _ _ => false
  | .v6 groups =>
    let first := groups[0].toNat
    0xFE80 ≤ first && first ≤ 0xFEBF || first / 256 = 0xFF && first % 16 = 2

/-- The number of the network interface that every machine has. -/
def loopbackZone : UInt32 := 1

/-- Whether a text names that interface: at most 15 bytes, and a colon begins a second name for it
that does not count. -/
def namesLoopback (t : Text) : Bool :=
  t.takeWhile (· != ':') = text "lo" && (Utf8.encode t).length ≤ 15

/-- The zone that a text names, by its number or, for an address of one link, by its interface. -/
def readZone? (ip : IpAddress) (t : Text) : Option UInt32 :=
  if isLinkLocal ip ∧ namesLoopback t then some loopbackZone
  else if t.head? = some '+' then none
  else match Decimal.readNat 4294967295 t with
    | .ok n => some (UInt32.ofNat n)
    | .error _ => none

end HostAddress

structure SocketAddress where
  host : HostAddress
  port : UInt16
  deriving DecidableEq, Repr

def SocketAddress.toText (a : SocketAddress) : Text :=
  let host := a.host.toText
  (if a.host.ip.isV6 then '[' :: host ++ [']'] else host) ++ ':' :: Decimal.ofNat a.port.toNat

inductive LookupError where
  /-- The name cannot be one. -/
  | unknownName
  /-- There is nobody to ask. -/
  | unavailable
  deriving DecidableEq, Repr

def LookupError.toIoError (e : LookupError) : IoError :=
  .described .other <| text "failed to lookup address information: " ++ match e with
    | .unknownName => text "Name or service not known"
    | .unavailable => text "Temporary failure in name resolution"

def HostAddress.readZoned? (t : Text) : Option HostAddress := do
  let (before, zone) ← Text.cutAt? '%' t
  let ip ← IpAddress.readV6? before
  some ⟨ip, ← readZone? ip zone⟩

def HostAddress.ofText? (t : Text) : Option HostAddress :=
  match IpAddress.ofText? t <|> IpAddress.readLooseV4? t with
  | some ip => some ⟨ip, 0⟩
  | none => readZoned? t

/-- The address of a host: the one that its name writes out, or the machine's own. -/
def readHost (host : Text) : Except LookupError HostAddress :=
  match HostAddress.ofText? host with
  | some address => .ok address
  | none =>
    if HostName.isOwn host then .ok ⟨.v4 127 0 0 1, 0⟩
    else if HostName.isHostName host then .error .unavailable
    else .error .unknownName

/-- A name is turned into an address: others' names are not known here, only written-out addresses. -/
def resolveHost (host : Text) : Except IoError HostAddress :=
  if host.contains (Char.ofNat 0) then .error .nulInName
  else (readHost host).mapError LookupError.toIoError

/-- The error of connecting to a port that nobody listens at. -/
def nobodyListens : IoError := .os 111

end FileFerry
