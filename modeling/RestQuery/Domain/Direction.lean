import RestQuery.Domain.Mark

/-!
# Directions of writing

A domain name that holds a letter or a digit of a script written from right to left has to keep to
rules by which its parts are told apart in print: each part is written in one direction, and its
ends show which. The classes are those of Unicode 17, for the characters that a domain name may
hold.
-/

namespace RestQuery.Domain

/-- What a character does to the direction of a text. -/
inductive Direction where
  /-- A letter of a script written from left to right. -/
  | leftToRight
  /-- A letter of a script written from right to left. -/
  | rightToLeft
  /-- A letter of the Arabic script or one of its kin. -/
  | arabicLetter
  /-- A digit of the Arabic scripts. -/
  | arabicNumber
  /-- A digit of the European kind. -/
  | europeanNumber
  /-- A sign of numbers. -/
  | europeanSeparator
  /-- A mark between groups of digits. -/
  | commonSeparator
  /-- A mark beside numbers, such as that of a currency. -/
  | europeanTerminator
  /-- A mark that takes no room. -/
  | nonspacingMark
  /-- A character without a shape. -/
  | boundaryNeutral
  /-- Any other sign. -/
  | otherNeutral
  deriving DecidableEq, Repr

/-- The letters of scripts written from right to left, apart from the Arabic ones. -/
def rightToLeftLetters : List (Nat × Nat) :=
  Text.ranges
    ["5BE 5C0 5C3 5C6 5D0-5F4 7C0-7EA 7F4-7F5 7FA 7FE-815 81A 824 828 830-858 85E 10800-1091B",
     "10920-10A00 10A10-10A35 10A40-10AE4 10AEB-10B35 10B40-10CFF 10D4A-10D4F 10D6F-10D8F",
     "10E80-10EA9 10EAD-10EB1 10F00-10F27 10F70-10F81 10F86-10FF6 1E800-1E8CF 1E922-1E943",
     "1E94B-1E95F"]

/-- The letters of Arabic scripts. -/
def arabicLetters : List (Nat × Nat) :=
  Text.ranges
    ["608 60B 60D 61B-64A 66D-66F 671-6D5 6E5-6E6 6EE-6EF 6FA-710 712-72F 74D-7A5 7B1 860-88F",
     "8A0-8C9 FBB2-FBC2 FE73 10D00-10D23 10EC2-10EC7 10F30-10F45 10F51-10F59 1EC71-1ED3D"]

/-- The digits of Arabic scripts. -/
def arabicNumbers : List (Nat × Nat) :=
  Text.ranges
    ["660-669 66B-66C 10D30-10D49 10E60-10E7E"]

/-- The digits of the European kind. -/
def europeanNumbers : List (Nat × Nat) :=
  Text.ranges
    ["30-39 6F0-6F9 102E1-102FB"]

/-- The signs of numbers. -/
def europeanSeparators : List (Nat × Nat) :=
  Text.ranges
    ["2B 2D 2212"]

/-- The marks between groups of digits. -/
def commonSeparators : List (Nat × Nat) :=
  Text.ranges
    ["2C 2E-2F 3A 60C 2044"]

/-- The marks beside numbers. -/
def europeanTerminators : List (Nat × Nat) :=
  Text.ranges
    ["23-25 A2-A5 B0-B1 58F 609-60A 66A 9F2-9F3 9FB AF1 BF9 E3F 17DB 2030-2032 20A0-20C1 212E",
     "2213 A838-A839 11FDD-11FE0 1E2FF"]

/-- The characters without a shape. -/
def boundaryNeutrals : List (Nat × Nat) :=
  Text.ranges
    ["0-8 E-1B 7F 200C-200D"]

/-- The signs that have no direction. -/
def otherNeutrals : List (Nat × Nat) :=
  Text.ranges
    ["21-22 26-2A 3B-60 7B-7E A1 A6-AE B6-D7 F7 2B9-2BA 2C2-2CF 2D2-2ED 2EF-2FF 375 3F6 58A-58E",
     "606-607 60E-60F 6DE 6E9 7F6-7F9 BF3-BF8 BFA C78-C7E F3A-F3D 1390-1399 1400 169B-169C",
     "17F0-180A 1940-1945 19DE-19FF 2010-2027 2035-2043 2045-205E 2104-2129 213A-214D 218A-2211",
     "2214-2335 237B-2394 2396-26AB 26AD-27FF 2900-2BFF 2CE5-2CEA 2CF9-2CFF 2E00-3004 3008-3020",
     "3030 3037 303D-303F 30A0 30FB 31C0-31E5 4DC0-4DFF A490-A4C6 A60D-A60F A673 A67E-A67F",
     "A700-A721 A788 A828-A82B A874-A877 AB6A-AB6B FBC3-FDFF FE45-FE46 10101 10140-1018C",
     "10190-101A0 1091F 10B39-10B3F 10D6E 10ED0-10ED8 11052-11065 11660-1166C 11FD5-11FDC",
     "11FE1-11FF1 16FE2 1CC00-1CEF0 1D1E9-1D241 1D245 1D300-1D356 1EEF0-1F12F 1F16D-1F16F 1F1AD",
     "1F260-1FBFA"]

/-- The marks without room that count as letters written from left to right. -/
def markLetters : List (Nat × Nat) := Text.ranges ["CBF CC6 11A07-11A08 11C3F"]

/-- The tables with the directions of their characters. -/
def directions : List (List (Nat × Nat) × Direction) :=
  [(markLetters, .leftToRight), (nonspacingMarks, .nonspacingMark),
   (rightToLeftLetters, .rightToLeft),
   (arabicLetters, .arabicLetter),
   (arabicNumbers, .arabicNumber),
   (europeanNumbers, .europeanNumber),
   (europeanSeparators, .europeanSeparator),
   (commonSeparators, .commonSeparator),
   (europeanTerminators, .europeanTerminator),
   (boundaryNeutrals, .boundaryNeutral),
   (otherNeutrals, .otherNeutral)]

/-- The direction of a character. -/
def Direction.ofChar (c : Char) : Direction :=
  match directions.find? fun table => Text.inRanges table.1 c.toNat with
  | some table => table.2
  | none => .leftToRight

/-- Whether a character asks for the rules of direction. -/
def Direction.isFromRight : Direction → Bool
  | .rightToLeft | .arabicLetter | .arabicNumber => true
  | _ => false

/-- Whether a character may stand anywhere after the first letter of a part. -/
def Direction.isInner : Direction → Bool
  | .europeanNumber | .europeanSeparator | .commonSeparator | .europeanTerminator
  | .nonspacingMark | .boundaryNeutral | .otherNeutral => true
  | _ => false

/-- Whether what follows a first letter keeps to a direction, in which `letters` may stand anywhere
and `ends` at the end. Marks without room after the end are passed over. -/
def keepsTo (letters ends : List Direction) (tail : List Direction) : Bool :=
  match tail.reverse.dropWhile (· == .nonspacingMark) with
  | [] => true
  | last :: inner => ends.contains last && inner.all fun d => letters.contains d || d.isInner

/-- Whether a part of a domain name keeps to the rules of direction. A part from right to left does
not mix the digits of two kinds. -/
def isOrdered (part : List Char) : Bool :=
  match part.map Direction.ofChar with
  | [] => true
  | .leftToRight :: tail => keepsTo [.leftToRight] [.leftToRight, .europeanNumber] tail
  | .rightToLeft :: tail | .arabicLetter :: tail =>
    keepsTo [.rightToLeft, .arabicLetter, .arabicNumber]
        [.rightToLeft, .arabicLetter, .arabicNumber, .europeanNumber] tail &&
      !(tail.contains .arabicNumber && tail.contains .europeanNumber)
  | _ => false

/-- Whether the parts of a domain name keep to the rules of direction, if they have to. -/
def areOrdered (parts : List (List Char)) : Bool :=
  !(parts.any fun part => part.any fun c => (Direction.ofChar c).isFromRight) ||
    parts.all isOrdered

end RestQuery.Domain
