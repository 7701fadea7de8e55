import RestQuery.Domain.Direction
import RestQuery.Domain.Form
import RestQuery.Domain.Joining
import RestQuery.Domain.Punycode

/-!
# Domain names

A domain name is parts between points. Each is put into the form in which domain names are compared,
and is refused if it is not one that a registry could hold: a part that is written in ASCII has to
stand for a text in that form, no part begins with a mark, joiners stand where they may, and the
parts are ordered in print.
-/

namespace RestQuery.Domain

/-- Whether a character of ASCII may not stand in a domain name. -/
def isForbiddenAscii (c : Char) : Bool :=
  c.toNat ≤ 0x20 || c.toNat = 0x7F || "%#/:<>?@[\\]^|".toList.contains c

/-- Whether a text is in the form in which domain names are compared. -/
def isInForm (s : List Char) : Bool := s.all (fun c => Form.ofChar c = .itself) && compose s = s

/-- Whether a text is in ASCII. -/
def isAscii (s : List Char) : Bool := s.all fun c => c.toNat < 0x80

/-- The text of a part that is written in ASCII, from what follows its mark. A dash at the end is
left out where nothing but ASCII is written. -/
def decodePart? (code : List Char) : Option (List Char) :=
  if !isAscii code || code.getLast?.getD '-' = '-' || 2000 < code.length then none
  else
    match Punycode.decode code with
    | some part => if isInForm part then some part else none
    | none => none

/-- The text of a part of a domain name. -/
def part? (part : List Char) : Option (List Char) :=
  match Text.dropStart? "xn--".toList part with
  | some code => decodePart? code
  | none => some part

/-- Whether a part of a domain name begins with no mark, has its joiners in place and is not too
long to be written in ASCII. -/
def isPart (part : List Char) : Bool :=
  !(part.head?.any isMark) && hasJoinersInPlace [] part && (isAscii part || part.length ≤ 1000)

/-- The domain name that a text stands for, in the form in which domain names are compared. -/
def name? (s : List Char) : Option (List Char) :=
  match putInForm s with
  | none => none
  | some s =>
    match (Text.splitAll '.' (compose s)).mapM part? with
    | none => none
    | some parts =>
      if parts.all (fun part => isPart part && !part.any isForbiddenAscii) && areOrdered parts then
        some (['.'].intercalate parts)
      else none

end RestQuery.Domain
