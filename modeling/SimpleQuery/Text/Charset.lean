import SimpleQuery.Text.Utf8

/-!
# Charsets

The four charsets in which text travels. Writing is strict: a text with a character that the charset
lacks has no bytes. Reading never fails: what spells no character is replaced.

* `Charset.decode_encode` — reading what was written gives the text back.
* `Charset.named?` — the charset that a label names, whatever its letter case and punctuation.

Model of `str.encode` and `bytes.decode` for these four.
-/

set_option autoImplicit false

namespace SimpleQuery

/-- A charset. -/
inductive Charset where
  | utf8
  | ascii
  | latin1
  | windows1252
  deriving DecidableEq, Repr

/-! ## Characters of one byte -/

/-- Windows-1252 from 0x80 to 0x9F, five places of which hold no character. -/
def windows1252Upper : List (Option Char) :=
  [some '\u20AC', none, some '\u201A', some '\u0192', some '\u201E', some '\u2026', some '\u2020',
   some '\u2021', some '\u02C6', some '\u2030', some '\u0160', some '\u2039', some '\u0152', none,
   some '\u017D', none, none, some '\u2018', some '\u2019', some '\u201C', some '\u201D',
   some '\u2022', some '\u2013', some '\u2014', some '\u02DC', some '\u2122', some '\u0161',
   some '\u203A', some '\u0153', none, some '\u017E', some '\u0178']

namespace Charset

/-- The character that one byte spells in a charset of one-byte characters. -/
def char? : Charset → UInt8 → Option Char
  | .utf8, b | .ascii, b => if b.toNat < 0x80 then some (Char.ofNat b.toNat) else none
  | .latin1, b => some (Char.ofNat b.toNat)
  | .windows1252, b =>
    if b.toNat < 0x80 ∨ 0xA0 ≤ b.toNat then some (Char.ofNat b.toNat)
    else windows1252Upper[b.toNat - 0x80]?.join

/-- The byte that spells a character in a charset of one-byte characters. -/
def byte? : Charset → Char → Option UInt8
  | .utf8, c | .ascii, c => if c.toNat < 0x80 then some (UInt8.ofNat c.toNat) else none
  | .latin1, c => if c.toNat < 0x100 then some (UInt8.ofNat c.toNat) else none
  | .windows1252, c =>
    if c.toNat < 0x80 ∨ (0xA0 ≤ c.toNat ∧ c.toNat < 0x100) then some (UInt8.ofNat c.toNat)
    else (windows1252Upper.idxOf? (some c)).map fun i => UInt8.ofNat (0x80 + i)

/-- The bytes of a text, if the charset has all its characters. -/
def encodeChars? : Charset → List Char → Option Bytes
  | .utf8, text => some (Utf8.encode text)
  | cs, text => text.mapM cs.byte?

/-- The text that the bytes spell, with replacement. -/
def decodeChars : Charset → Bytes → List Char
  | .utf8, bytes => Utf8.decode bytes
  | cs, bytes => bytes.map fun b => (cs.char? b).getD Utf8.replacement

/-- The bytes of a text, if the charset has all its characters. -/
def encode? (cs : Charset) (text : String) : Option Bytes := cs.encodeChars? text.toList

/-- The text that the bytes spell, with replacement. -/
def decode (cs : Charset) (bytes : Bytes) : String := String.ofList (cs.decodeChars bytes)

theorem toNat_ofNat_of_lt {n : Nat} (h : n < 0x100) : (UInt8.ofNat n).toNat = n := by
  rw [UInt8.toNat_ofNat']; omega

/-- A byte that spells a character is read as that character. -/
theorem char?_of_byte? {cs : Charset} {c : Char} {b : UInt8} (h : cs.byte? c = some b) :
    cs.char? b = some c := by
  cases cs with
  | utf8 | ascii =>
    simp only [byte?, Option.ite_none_right_eq_some, Option.some.injEq] at h
    obtain ⟨hc, rfl⟩ := h
    simp [char?, toNat_ofNat_of_lt (show c.toNat < 0x100 by omega), hc]
  | latin1 =>
    simp only [byte?, Option.ite_none_right_eq_some, Option.some.injEq] at h
    obtain ⟨hc, rfl⟩ := h
    simp [char?, toNat_ofNat_of_lt hc]
  | windows1252 =>
    simp only [byte?] at h
    split at h
    · rename_i hc
      cases h
      simp [char?, toNat_ofNat_of_lt (show c.toNat < 0x100 by omega), show
        c.toNat < 0x80 ∨ 0xA0 ≤ c.toNat by omega]
    · obtain ⟨i, hi, rfl⟩ := Option.map_eq_some_iff.1 h
      rw [List.idxOf?_eq_some_iff] at hi
      obtain ⟨hlt, he, -⟩ := hi
      have hl : i < 32 := hlt
      have e : (UInt8.ofNat (0x80 + i)).toNat = 0x80 + i := toNat_ofNat_of_lt (by omega)
      simp only [char?, e]
      rw [if_neg (by omega), Nat.add_sub_cancel_left, List.getElem?_eq_getElem hlt]
      simp [he]

theorem mapM_char?_of_mapM_byte? {cs : Charset} {text : List Char} {bytes : Bytes}
    (h : text.mapM cs.byte? = some bytes) :
    (bytes.map fun b => (cs.char? b).getD Utf8.replacement) = text := by
  induction text generalizing bytes with
  | nil => cases h; rfl
  | cons c t ih =>
    simp only [List.mapM_cons, Option.bind_eq_bind, Option.pure_def, Option.bind_eq_some_iff,
      Option.some.injEq] at h
    obtain ⟨b, hb, r, hr, rfl⟩ := h
    simp [char?_of_byte? hb, ih hr]

/-- Reading what was written gives the text back. -/
theorem decodeChars_encodeChars? {cs : Charset} {text : List Char} {bytes : Bytes}
    (h : cs.encodeChars? text = some bytes) : cs.decodeChars bytes = text := by
  cases cs with
  | utf8 => cases h; exact Utf8.decode_encode text
  | ascii | latin1 | windows1252 => exact mapM_char?_of_mapM_byte? h

theorem decode_encode? {cs : Charset} {text : String} {bytes : Bytes}
    (h : cs.encode? text = some bytes) : cs.decode bytes = text := by
  simp [decode, decodeChars_encodeChars? h]

/-! ## Labels -/

/-- The label under which a charset is listed. -/
def label : Charset → String
  | .utf8 => "utf_8"
  | .ascii => "ascii"
  | .latin1 => "latin_1"
  | .windows1252 => "cp1252"

/-- Other labels of a charset. -/
def aliases : Charset → List String
  | .utf8 => ["u8", "utf", "utf8", "utf8_ucs2", "utf8_ucs4", "cp65001"]
  | .ascii =>
    ["646", "ansi_x3.4_1968", "ansi_x3_4_1968", "ansi_x3.4_1986", "cp367", "csascii", "ibm367",
     "iso646_us", "iso_646.irv_1991", "iso_ir_6", "us", "us_ascii"]
  | .latin1 =>
    ["8859", "cp819", "csisolatin1", "ibm819", "iso8859", "iso8859_1", "iso_8859_1",
     "iso_8859_1_1987", "iso_ir_100", "l1", "latin", "latin1"]
  | .windows1252 => ["1252", "windows_1252"]

/-- All charsets. -/
def all : List Charset := [.utf8, .ascii, .latin1, .windows1252]

/-- The words of a name, joined by single underscores and in lower case: letters, digits and points
make words, and all else separates them. -/
def normalize (name : String) : String :=
  let words := name.toList.splitBy fun a b => (a.isAlphanum || a == '.') == (b.isAlphanum || b == '.')
  let kept := words.filter fun w => w.any fun c => c.isAlphanum || c == '.'
  "_".intercalate (kept.map fun w => String.ofList (w.map Char.toLower))

/-- The charset that a name stands for. A point in an alias may be written for an underscore. -/
def named? (name : String) : Option Charset :=
  let n := normalize name
  let undotted := String.ofList (n.toList.map fun c => if c = '.' then '_' else c)
  all.find? fun cs => n == cs.label || cs.aliases.contains n || cs.aliases.contains undotted

end Charset

end SimpleQuery
