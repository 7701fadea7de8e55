import RestQuery.Domain.Name
import RestQuery.Text.Numeral
import RestQuery.Url.Percent

/-!
# Hosts

With a scheme of the web or of files a host is an IPv6 address in brackets, an IPv4 address if it
ends in a number, and else a domain name; with another scheme any text that holds none of a few
characters. Nothing in a query depends on which host it is, but files on this one have paths of
their own.
-/

namespace RestQuery.Url

/-- Why a URL cannot be read. -/
inductive Fault where
  /-- There is no host where there has to be one. -/
  | emptyHost
  /-- The port is no number, or is too large. -/
  | badPort
  /-- The host ends in a number and is no IPv4 address. -/
  | badIpv4
  /-- The host begins with a bracket and is no IPv6 address. -/
  | badIpv6
  /-- The host is no domain name. -/
  | badDomain
  /-- The host holds a character that no host may hold. -/
  | badHostChar
  deriving DecidableEq, Repr

/-- The wording of a fault. -/
def Fault.message : Fault → String
  | .emptyHost => "empty host"
  | .badPort => "invalid port number"
  | .badIpv4 => "invalid IPv4 address"
  | .badIpv6 => "invalid IPv6 address"
  | .badDomain => "invalid international domain name"
  | .badHostChar => "invalid domain character"

/-! ## IPv6 -/

/-- Whether a text is a number up to 255 without superfluous zeros. -/
def isIpv4Part (s : List Char) : Bool :=
  match Text.Numeral.toNat? s with
  | some n => n ≤ 255 && (s.length = 1 || s.head? != some '0')
  | none => false

/-- Whether a text is four such numbers with points between them. -/
def isIpv4Tail (s : List Char) : Bool :=
  let parts := Text.splitAll '.' s
  parts.length = 4 && parts.all isIpv4Part

/-- Whether a character is a hexadecimal digit. -/
def isHexDigit (c : Char) : Bool := c.toNat < 0x80 && (hexValue? (UInt8.ofNat c.toNat)).isSome

/-- Whether a text is a group of an IPv6 address. -/
def isIpv6Group (s : List Char) : Bool := !s.isEmpty && s.length ≤ 4 && s.all isHexDigit

/-- The number of groups that the parts between colons stand for, where the last may be an IPv4
address in place of two groups; none if a part is no group. -/
def countGroups (mayEndInIpv4 : Bool) : List (List Char) → Option Nat
  | [] => some 0
  | [last] =>
    if isIpv6Group last then some 1
    else if mayEndInIpv4 && isIpv4Tail last then some 2 else none
  | part :: rest => if isIpv6Group part then (countGroups mayEndInIpv4 rest).map (· + 1) else none

/-- The groups on one side of a double colon. -/
def sideGroups (mayEndInIpv4 : Bool) (s : List Char) : Option Nat :=
  if s.isEmpty then some 0 else countGroups mayEndInIpv4 (Text.splitAll ':' s)

/-- Cuts a text at the first double colon. -/
def splitDoubleColon : List Char → Option (List Char × List Char)
  | ':' :: ':' :: rest => some ([], rest)
  | c :: rest => (splitDoubleColon rest).map fun p => (c :: p.1, p.2)
  | [] => none

/-- Whether a text is an IPv6 address: eight groups, or fewer with one double colon for the rest. -/
def isIpv6 (s : List Char) : Bool :=
  match splitDoubleColon s with
  | none => sideGroups true s = some 8
  | some (before, after) =>
    match sideGroups false before, sideGroups true after with
    | some m, some n => m + n ≤ 7
    | _, _ => false

/-! ## IPv4 -/

/-- The value of digits in a base from two to sixteen, all of which are digits of that base. -/
def baseValue? (base : Nat) (s : List Char) : Option Nat :=
  s.foldl (fun acc c => match acc, hexValue? (UInt8.ofNat c.toNat) with
    | some n, some d => if c.toNat < 0x80 && d < base then some (n * base + d) else none
    | _, _ => none) (some 0)

/-- The value of a part of an IPv4 address: octal after a zero, hexadecimal after `0x`. -/
def ipv4Number? (s : List Char) : Option Nat :=
  match s with
  | [] => none
  | '0' :: 'x' :: rest | '0' :: 'X' :: rest => baseValue? 16 rest
  | '0' :: c :: rest => baseValue? 8 (c :: rest)
  | s => baseValue? 10 s

/-- The parts between points; a point at the end opens no part. -/
def domainParts (s : List Char) : List (List Char) :=
  let parts := Text.splitAll '.' s
  if parts.getLast? = some [] then parts.dropLast else parts

/-- Whether the last part of a domain is a number. -/
def endsInNumber (s : List Char) : Bool :=
  match (domainParts s).getLast? with
  | none => false
  | some last => (!last.isEmpty && last.all Char.isDigit) || (ipv4Number? last).isSome

/-- Whether numbers are the parts of an IPv4 address: each but the last below 256, and the last so
small that it fits the bytes that are left. -/
def isIpv4Address (numbers : List Nat) : Bool :=
  match numbers.reverse with
  | [] => false
  | last :: before =>
    before.all (· < 256) && before.length ≤ 3 && last < Nat.pow 256 (4 - before.length)

/-- Whether a domain is an IPv4 address. -/
def isIpv4 (s : List Char) : Bool :=
  match (domainParts s).mapM ipv4Number? with
  | some numbers => isIpv4Address numbers
  | none => false

/-! ## Domains -/

/-- A host that has been read. -/
inductive Host where
  /-- A domain name in the form in which domain names are compared. -/
  | name (s : List Char)
  /-- An address. -/
  | address
  deriving DecidableEq, Repr

/-- Whether a host is the one on which the reader is. -/
def Host.isLocal (h : Host) : Bool := h = .name "localhost".toList

/-- The domain name that a text with triples stands for. -/
def decodeDomain? (s : List Char) : Option (List Char) :=
  match Text.Utf8.decode (percentDecodeText s) with
  | .error _ => none
  | .ok cs => Domain.name? cs

/-- The host in brackets, from what follows the first bracket. -/
def readBracketed (inner : List Char) : Except Fault Host :=
  match inner.reverse with
  | ']' :: address => if isIpv6 address.reverse then .ok .address else .error .badIpv6
  | _ => .error .badIpv6

/-- The host of a URL with a scheme of the web or of files. -/
def readHost (s : List Char) : Except Fault Host :=
  match s with
  | '[' :: inner => readBracketed inner
  | s =>
    match decodeDomain? s with
    | none => .error .badDomain
    | some domain =>
      if domain.isEmpty then .error .emptyHost
      else if endsInNumber domain then if isIpv4 domain then .ok .address else .error .badIpv4
      else .ok (.name domain)

/-- The host of a URL with another scheme. -/
def readPlainHost (s : List Char) : Except Fault Host :=
  match s with
  | '[' :: inner => readBracketed inner
  | s =>
    if s.any fun c => c = '\x00' || "\t\n\r #/:<>?@[\\]^|".toList.contains c then
      .error .badHostChar
    else .ok (.name s)

end RestQuery.Url
