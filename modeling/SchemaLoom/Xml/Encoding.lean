import SchemaLoom.Text.Utf8
import SchemaLoom.Xml.Declaration

/-!
From octets to characters: the encoding of a document is told by its first octets or by its
declaration, and is UTF-8 otherwise.
-/
namespace SchemaLoom.Xml

inductive Encoding where
  | utf8
  | utf16 (bigEndian : Bool)
  | utf32 (bigEndian : Bool)
  | ascii
  | latin1
  | latin9
  | windows1252
  deriving DecidableEq, Repr

/-- Encodings of one octet a character by their names; `none` for names that are not known. -/
def Encoding.ofName? (name : List Char) : Option Encoding :=
  let name := String.ofList (name.map Char.toUpper)
  if name == "UTF-8" || name == "UTF8" then some .utf8
  else if name == "ISO-8859-1" || name == "ISO-LATIN-1" || name == "LATIN1" then some .latin1
  else if name == "US-ASCII" || name == "ASCII" then some .ascii
  else if name == "ISO-8859-15" || name == "LATIN-9" then some .latin9
  else if name == "WINDOWS-1252" || name == "CP1252" then some .windows1252
  else none

/-- The octets 0x80 to 0x9f of windows-1252; zero marks the five that stand for nothing. -/
def windowsRow : List Nat := [
  0x20ac, 0, 0x201a, 0x192, 0x201e, 0x2026, 0x2020, 0x2021, 0x2c6, 0x2030, 0x160, 0x2039, 0x152, 0,
  0x17d, 0, 0, 0x2018, 0x2019, 0x201c, 0x201d, 0x2022, 0x2013, 0x2014, 0x2dc, 0x2122, 0x161, 0x203a,
  0x153, 0, 0x17e, 0x178]

/-- The octets of ISO 8859-15 that differ from ISO 8859-1. -/
def latin9Row : List (Nat × Nat) := [
  (0xa4, 0x20ac), (0xa6, 0x160), (0xa8, 0x161), (0xb4, 0x17d), (0xb8, 0x17e), (0xbc, 0x152),
  (0xbd, 0x153), (0xbe, 0x178)]

def octetChar? (encoding : Encoding) (byte : UInt8) : Option Char :=
  let b := byte.toNat
  match encoding with
  | .latin1 => some (Char.ofNat b)
  | .latin9 => some (Char.ofNat ((latin9Row.lookup b).getD b))
  | .ascii => if b < 0x80 then some (Char.ofNat b) else none
  | .windows1252 =>
    if 0x80 ≤ b && b < 0xa0 then
      match windowsRow[b - 0x80]? with
      | some 0 => none
      | some n => some (Char.ofNat n)
      | none => none
    else some (Char.ofNat b)
  | _ => none

/-- Code units of sixteen bits; a leftover octet is a fault. -/
def units16? (bigEndian : Bool) : List UInt8 → Option (List Nat)
  | [] => some []
  | [_] => none
  | a :: b :: rest =>
    let unit := if bigEndian then a.toNat * 256 + b.toNat else b.toNat * 256 + a.toNat
    (unit :: ·) <$> units16? bigEndian rest

/-- Characters of sixteen-bit code units; surrogates must come in pairs. -/
def ofUnits16? : List Nat → Option (List Char)
  | [] => some []
  | u :: rest =>
    if 0xd800 ≤ u && u < 0xdc00 then
      match rest with
      | v :: rest =>
        if 0xdc00 ≤ v && v < 0xe000 then
          (Char.ofNat (0x10000 + (u - 0xd800) * 0x400 + (v - 0xdc00)) :: ·) <$> ofUnits16? rest
        else none
      | [] => none
    else if 0xdc00 ≤ u && u < 0xe000 then none
    else (Char.ofNat u :: ·) <$> ofUnits16? rest

def ofUnits32? (bigEndian : Bool) : List UInt8 → Option (List Char)
  | [] => some []
  | a :: b :: c :: d :: rest =>
    let n := if bigEndian then ((a.toNat * 256 + b.toNat) * 256 + c.toNat) * 256 + d.toNat
      else ((d.toNat * 256 + c.toNat) * 256 + b.toNat) * 256 + a.toNat
    if n < 0x110000 && !(0xd800 ≤ n && n < 0xe000) then
      (Char.ofNat n :: ·) <$> ofUnits32? bigEndian rest
    else none
  | _ => none

/-- The characters of octets in a known encoding. -/
def decodeAs? (encoding : Encoding) (octets : List UInt8) : Option (List Char) :=
  match encoding with
  | .utf8 => (Text.ofUtf8 octets).toOption
  | .utf16 big => (units16? big octets).bind ofUnits16?
  | .utf32 big => ofUnits32? big octets
  | encoding => octets.mapM (octetChar? encoding)

/-- An encoding that the first octets tell, and the octets after the mark. -/
def marked? : List UInt8 → Option (Encoding × List UInt8)
  | 0xff :: 0xfe :: 0 :: 0 :: rest => some (.utf32 false, rest)
  | 0 :: 0 :: 0xfe :: 0xff :: rest => some (.utf32 true, rest)
  | 0xef :: 0xbb :: 0xbf :: rest => some (.utf8, rest)
  | 0xff :: 0xfe :: rest => some (.utf16 false, rest)
  | 0xfe :: 0xff :: rest => some (.utf16 true, rest)
  | 0x3c :: 0 :: 0x3f :: 0 :: rest => some (.utf16 false, 0x3c :: 0 :: 0x3f :: 0 :: rest)
  | 0 :: 0x3c :: 0 :: 0x3f :: rest => some (.utf16 true, 0 :: 0x3c :: 0 :: 0x3f :: rest)
  | _ => none

/-- The characters of a document. A declared encoding counts where the first octets tell none. -/
def decode? (octets : List UInt8) : Option (List Char) :=
  match marked? octets with
  | some (encoding, rest) => decodeAs? encoding rest
  | none =>
    match declaration? (octets.map fun b => Char.ofNat b.toNat) with
    | some (some name, _) => (Encoding.ofName? name).bind (decodeAs? · octets)
    | _ => decodeAs? .utf8 octets

end SchemaLoom.Xml
