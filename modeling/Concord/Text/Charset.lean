import Concord.Text.Quoted
/-!
Character sets that a source text must fit into. A text is refused at its first run of characters
outside the set.
-/

namespace Concord.Text

inductive Charset
  | unicode
  | ascii
  | latin
  deriving DecidableEq, Repr

namespace Charset

/-- The form under which a name is looked up: lower case, with one underscore for each run of other
characters between letters and digits. -/
def lookupName (name : String) : String :=
  String.intercalate "_"
    (((name.toList.map Char.toLower).splitOnP (fun c => !(c.isAlphanum || c == '.'))).filter
      (!·.isEmpty) |>.map String.ofList)

def named? (name : String) : Option Charset :=
  let n := lookupName name
  if n ∈ ["utf_8", "utf8", "u8", "utf", "utf_16", "utf16", "u16", "utf_16_le", "utf_16_be",
      "utf_32", "utf32", "utf_32_le", "utf_32_be"] then some .unicode
  else if n ∈ ["ascii", "us_ascii", "us", "646", "ansi_x3.4_1968", "iso646_us"] then some .ascii
  else if n ∈ ["latin_1", "latin1", "latin", "l1", "iso_8859_1", "iso8859_1", "iso8859", "8859",
      "cp819"] then some .latin
  else none

/-- The number of code points of the set, where it is limited. -/
def size? : Charset → Option Nat
  | .unicode => none
  | .ascii => some 128
  | .latin => some 256

def label : Charset → String
  | .unicode => "utf-8"
  | .ascii => "ascii"
  | .latin => "latin-1"

def holds (s : Charset) (c : Char) : Bool :=
  match s.size? with
  | none => true
  | some n => c.toNat < n

/-- Why a text does not fit: its first run of characters outside the set, and where it stands. -/
def refusal? (s : Charset) (text : String) : Option String :=
  let before := text.toList.takeWhile s.holds
  let run := (text.toList.drop before.length).takeWhile (!s.holds ·)
  match run with
  | [] => none
  | c :: more =>
      let bound := (s.size?.map toString).getD ""
      let first := before.length
      let what :=
        if more.isEmpty then
          s!"character '{String.ofList (codeEscape c)}' in position {first}"
        else s!"characters in position {first}-{first + more.length}"
      some s!"'{s.label}' codec can't encode {what}: ordinal not in range({bound})"

end Charset

end Concord.Text
