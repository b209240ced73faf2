import LineTokens.Encoding.Basic

/-!
The names by which encodings are asked for. Neither case nor what separates the
parts of a name makes a difference: `UTF 8`, `utf_8` and `-utf-8` are one name.
Every encoding goes by the name in its error texts and by several others.
-/

namespace LineTokens

namespace Encoding

def all : List Encoding := [utf8, ascii, latin1, utf16le]

/-- A character that counts in a name. All others only separate. -/
def countsInName (c : Char) : Bool := c.isAlphanum || c = '.'

/-- The part of a name behind its first character that counts. `separated` says
that others stand in front of it. -/
def normalizeRest (separated : Bool) : List Char → List Char
  | [] => []
  | c :: rest =>
    if countsInName c then
      let next := c.toLower :: normalizeRest false rest
      if separated then '_' :: next else next
    else normalizeRest true rest

/-- A name in small letters, with one underscore between its parts and none
around them. -/
def normalize (name : String) : String :=
  String.ofList (normalizeRest false (name.toList.dropWhile (!countsInName ·)))

/-- The other names of an encoding. -/
def aliases : Encoding → List String
  | utf8 => ["cp65001", "u8", "utf", "utf8", "utf8_ucs2", "utf8_ucs4"]
  | ascii =>
    ["646", "ansi_x3.4_1968", "ansi_x3.4_1986", "ansi_x3_4_1968", "cp367", "csascii", "ibm367",
      "iso646_us", "iso_646.irv_1991", "iso_ir_6", "us", "us_ascii"]
  | latin1 =>
    ["8859", "cp819", "csisolatin1", "ibm819", "iso8859", "iso8859_1", "iso_8859_1",
      "iso_8859_1_1987", "iso_ir_100", "l1", "latin", "latin1"]
  | utf16le => ["unicodelittleunmarked", "utf_16le"]

/-- The encoding goes by the name. In place of an underscore, other names than
the first may also have a point. No name has a null character. -/
def GoesBy (name : String) (e : Encoding) : Prop :=
  '\x00' ∉ name.toList ∧
    (normalize name = normalize e.name ∨ normalize name ∈ e.aliases ∨
      (normalize name).map (fun c => if c = '.' then '_' else c) ∈ e.aliases)

instance (name : String) (e : Encoding) : Decidable (GoesBy name e) :=
  inferInstanceAs (Decidable (_ ∧ _))

/-- The encoding that goes by a name. -/
def ofName? (name : String) : Option Encoding :=
  all.find? (GoesBy name ·)

@[simp] theorem ofName?_name (e : Encoding) : ofName? e.name = some e := by
  cases e <;> decide +kernel

example : ofName? "UTF 8" = some utf8 ∧ ofName? "iso.8859.1" = some latin1 := by decide +kernel

end Encoding

end LineTokens
