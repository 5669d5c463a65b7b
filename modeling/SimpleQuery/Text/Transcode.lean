import SimpleQuery.Fault
import SimpleQuery.Text.Charset

/-!
# Text in a charset that was named

A charset is named in settings. The name stands for one of the four charsets, for some other codec, or
for none: then no text can be written, and only the text of no bytes can be read. With a name that cannot
be looked up even that fails.

Model of `codecs.lookup`, `str.encode` and `bytes.decode`.
-/

set_option autoImplicit false

namespace SimpleQuery

/-- A charset besides the four, as it is used: how it writes a text, and how it reads bytes with
replacement. It may fail at both. -/
structure Codec where
  encode : String → Except Foreign Bytes
  decode : Bytes → Except Foreign String

/-- The codecs besides the four charsets, by their names. -/
abbrev Codecs := String → Option Codec

/-- What a name given for a charset stands for. -/
inductive NamedCharset where
  | known (charset : Charset)
  | other (codec : Codec)
  | unknown
  /-- The name has a zero character, so it names nothing. -/
  | malformed

namespace NamedCharset

/-- Looks a name up. -/
def ofName (codecs : Codecs) (name : String) : NamedCharset :=
  if name.toList.contains (Char.ofNat 0) then .malformed
  else
    match Charset.named? name, codecs name with
    | some charset, _ => .known charset
    | none, some codec => .other codec
    | none, none => .unknown

/-- Whether a name stands for a charset. -/
def isFound : NamedCharset → Bool
  | .known _ | .other _ => true
  | .unknown | .malformed => false

/-- The charset, if it is one of the four. -/
def charset? : NamedCharset → Option Charset
  | .known charset => some charset
  | _ => none

theorem eq_known_of_charset? {named : NamedCharset} {charset : Charset}
    (h : named.charset? = some charset) : named = .known charset := by
  cases named with
  | known cs =>
    cases h
    rfl
  | _ => cases h

end NamedCharset

namespace Text

/-- The bytes of a text. -/
def encodeIn (charset : NamedCharset) (text : String) : Except Fault Bytes :=
  match charset with
  | .malformed => .error .malformedCharset
  | .unknown => .error .unknownCharset
  | .other codec => (codec.encode text).mapError .foreign
  | .known cs =>
    match cs.encode? text with
    | some bytes => .ok bytes
    | none => .error .unencodable

/-- The text of bytes, with replacement. A codec is not asked for the text of no bytes. -/
def decodeIn (charset : NamedCharset) (bytes : Bytes) : Except Fault String :=
  match charset, bytes with
  | .known cs, _ => .ok (cs.decode bytes)
  | .malformed, _ => .error .malformedCharset
  | .other _, [] | .unknown, [] => .ok ""
  | .other codec, _ => (codec.decode bytes).mapError .foreign
  | .unknown, _ => .error .unknownCharset

end Text

end SimpleQuery
