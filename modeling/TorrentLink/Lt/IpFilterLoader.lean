import TorrentLink.Base.QString
import TorrentLink.Lib.BigEndian

/-!
# The IP filter file

`loadIpFilterFile` and `appendIpFilterLine`: each line adds at most one rule to libtorrent's filter. The
parsers of addresses and numbers (`AddressParsers`) and the filter (`IpFilter`) are arguments; an address
is its bytes in network order.
-/

namespace TorrentLink.Lt

open Lib

/-- `std::array<unsigned char, n>` -/
abbrev RawBytes (n : Nat) := { bs : List UInt8 // bs.length = n }

inductive Address
  | v4 (bytes : RawBytes 4)
  | v6 (bytes : RawBytes 16)
  deriving DecidableEq

def Address.isV6 : Address → Bool
  | .v4 _ => false
  | .v6 _ => true

def Address.bytes : Address → List UInt8
  | .v4 bytes => bytes.1
  | .v6 bytes => bytes.1

/-- What `QHostAddress::setAddress` reads. -/
inductive HostAddress
  | ipv4 (host : BitVec 32)
  | ipv6

structure AddressParsers where
  /-- `QHostAddress::setAddress` -/
  setAddress : String → Option HostAddress
  /-- `libtorrent::make_address` -/
  makeAddress : String → Option Address
  /-- `QString::toInt` -/
  toInt : String → Option Int

/-- `libtorrent::ip_filter`, as far as it is used: rules that block. -/
structure IpFilter (F : Type) where
  empty : F
  addRule : F → Address → Address → F
  isBlocked : F → Address → Bool

/-! ### Text -/

/-- The characters before and after the first place of `sep`. -/
def cutChars (sep : List Char) : List Char → Option (List Char × List Char)
  | [] => none
  | c :: cs =>
    if sep.isPrefixOf (c :: cs) then some ([], (c :: cs).drop sep.length)
    else (cutChars sep cs).map fun (left, right) => (c :: left, right)

/-- `left(pos)` and `mid(pos + sep.size())` for `pos = indexOf(sep)`, if that is not negative. -/
def cut (sep s : String) : Option (String × String) :=
  (cutChars sep.toList s.toList).map fun (left, right) => (String.ofList left, String.ofList right)

def stripOptionalBrackets (s : String) : String :=
  let t := (trimmed s).toList
  if 2 ≤ t.length ∧ t.head? = some '[' ∧ t.getLast? = some ']' then
    String.ofList ((t.drop 1).take (t.length - 2))
  else String.ofList t

def lineLooksLikeIpv6 (t : String) : Bool := ':' ∈ t.toList || t.toList.head? = some '['

/-! ### Addresses -/

def ipv4ToLtAddress (hostOrder : BitVec 32) : Address :=
  .v4 ⟨bigEndian 4 hostOrder.toNat, length_bigEndian 4 _⟩

def RawBytes.modify {n : Nat} (raw : RawBytes n) (i : Nat) (f : UInt8 → UInt8) : RawBytes n :=
  ⟨raw.1.modify i f, by rw [List.length_modify, raw.2]⟩

def RawBytes.fill {n : Nat} (b : UInt8) : RawBytes n := ⟨List.replicate n b, List.length_replicate⟩

/-- The mask of bit `k`, counted from the most significant one, in its byte. -/
def bitMask (k : Nat) : UInt8 := 1 <<< UInt8.ofNat (7 - k % 8)

/-- The body of the loop of `ipv6ApplyPrefixRange`. -/
def applyBit (range : RawBytes 16 × RawBytes 16) (k : Nat) : RawBytes 16 × RawBytes 16 :=
  (range.1.modify (k / 8) (· &&& ~~~ bitMask k), range.2.modify (k / 8) (· ||| bitMask k))

def ipv6ApplyPrefixRange (ip : RawBytes 16) (prefixLen : Nat) : RawBytes 16 × RawBytes 16 :=
  if prefixLen = 0 then (RawBytes.fill 0, RawBytes.fill 0xFF)
  else if 128 ≤ prefixLen then (ip, ip)
  else (List.range' prefixLen (128 - prefixLen)).foldl applyBit (ip, ip)

variable {F : Type} (p : AddressParsers) (filter : IpFilter F)

def parseDottedIPv4 (s : String) : Option Address :=
  match p.setAddress (trimmed s) with
  | some (.ipv4 host) => some (ipv4ToLtAddress host)
  | _ => none

def parseAnySingleIp (s : String) : Option Address :=
  let token := stripOptionalBrackets s
  match p.setAddress token with
  | some (.ipv4 host) => some (ipv4ToLtAddress host)
  | some .ipv6 =>
    match p.makeAddress token with
    | some (.v6 bytes) => some (.v6 bytes)
    | _ => none
  | none => none

/-! ### Lines: the filter with the rule of the line, `none` where the source returns false -/

def appendCidrIpv4 (line : String) (out : F) : Option F :=
  match cut "/" line with
  | none => none
  | some (left, right) =>
    if left = "" then none
    else
      match p.toInt (trimmed right) with
      | none => none
      | some prefixLen =>
        if prefixLen < 0 ∨ 32 < prefixLen then none
        else
          match p.setAddress (trimmed left) with
          | some (.ipv4 ip) =>
            if prefixLen = 0 then
              some (filter.addRule out (ipv4ToLtAddress 0) (ipv4ToLtAddress (BitVec.allOnes 32)))
            else
              let mask := BitVec.allOnes 32 <<< (32 - prefixLen.toNat)
              let firstHost := ip &&& mask
              let lastHost := firstHost ||| ~~~ mask
              some (filter.addRule out (ipv4ToLtAddress firstHost) (ipv4ToLtAddress lastHost))
          | _ => none

def appendCidrIpv6 (line : String) (out : F) : Option F :=
  match cut "/" line with
  | none => none
  | some (left, right) =>
    if left = "" then none
    else
      match p.toInt (trimmed right) with
      | none => none
      | some prefixLen =>
        if prefixLen < 0 ∨ 128 < prefixLen then none
        else
          match p.makeAddress (stripOptionalBrackets (trimmed left)) with
          | some (.v6 raw) =>
            let range := ipv6ApplyPrefixRange raw prefixLen.toNat
            some (filter.addRule out (.v6 range.1) (.v6 range.2))
          | _ => none

/-- The rule of a range whose end points may be swapped. -/
def addOrdered (a b : Address) (out : F) : F :=
  if memcmpGt a.bytes b.bytes then filter.addRule out b a else filter.addRule out a b

def appendRangeIpv4 (line : String) (out : F) : Option F :=
  match cut " - " (trimmed line) with
  | none => none
  | some (left, right) =>
    match parseDottedIPv4 p left, parseDottedIPv4 p right with
    | some a, some b => some (addOrdered filter a b out)
    | _, _ => none

def appendRangeIpv6 (line : String) (out : F) : Option F :=
  match cut " - " (trimmed line) with
  | none => none
  | some (left, right) =>
    match parseAnySingleIp p left, parseAnySingleIp p right with
    | some a, some b => if a.isV6 && b.isV6 then some (addOrdered filter a b out) else none
    | _, _ => none

def isComment (t : String) : Bool := t = "" || t.toList.head? = some '#'

def appendIpFilterLine (line : String) (out : F) : Option F :=
  let t := trimmed line
  if isComment t then some out
  else
    match cut "/" t with
    | some (left, _) =>
      if lineLooksLikeIpv6 left then appendCidrIpv6 p filter t out
      else
        match appendCidrIpv4 p filter t out with
        | some out' => some out'
        | none => appendCidrIpv6 p filter t out
    | none =>
      match cut " - " t with
      | some (left, right) =>
        let left6 := lineLooksLikeIpv6 (trimmed left)
        let right6 := lineLooksLikeIpv6 (trimmed right)
        if left6 || right6 then
          if !left6 || !right6 then none else appendRangeIpv6 p filter t out
        else appendRangeIpv4 p filter t out
      | none => (parseAnySingleIp p t).map fun a => filter.addRule out a a

/-! ### The file -/

structure LoadResult (F : Type) where
  ok : Bool
  filter : F
  /-- `none` where the source leaves it unset. -/
  rulesApplied : Option Nat := none
  error : String := ""

/-- The body of the loop over the lines. -/
def loadLine (s : F × Nat) (raw : String) : F × Nat :=
  let t := trimmed raw
  if isComment t then s
  else
    match appendIpFilterLine p filter t s.1 with
    | some out => (out, s.2 + 1)
    | none => s

/-- The lines of the file; `none` if it cannot be opened. -/
def loadIpFilterFile (file : Option (List String)) : LoadResult F :=
  match file with
  | none => { ok := false, filter := filter.empty, error := "cannot open file" }
  | some lines =>
    let s := lines.foldl (loadLine p filter) (filter.empty, 0)
    { ok := true, filter := s.1, rulesApplied := some s.2 }

end TorrentLink.Lt
