import Concord.PlainText.Recipe
import Concord.Text.Charset
/-!
The reference backends: parsers that take a source file as plain text. One that is built for a
character set refuses sources outside it. Variants that print how much was parsed, or forget to
reset, serve to show that replays catch state that leaks from one replay into the next. All of them
are one parser with different fittings, which may also be fitted for recipes of another kind.
-/

namespace Concord.PlainText

inductive Call
  | reset
  | parse
  | apply
  | print
  | diagnostics
  deriving DecidableEq, Repr

def Call.text : Call → String
  | .reset => "reset"
  | .parse => "parse"
  | .apply => "apply"
  | .print => "print"
  | .diagnostics => "diagnostics"

/-- The private state of a parser: how many sources it parsed since the last reset, and the calls it
got, each with that number at the time, if it keeps track of them. -/
structure Workings where
  parsed : Nat := 0
  calls : List (Call × Nat) := []
  deriving DecidableEq, Repr

/-- Plain text with recipes `ρ` that keep their state in `σ`. -/
abbrev kitOf (ρ σ : Type) : Kit := ⟨ρ, Source, Workings, σ⟩

abbrev kit : Kit := kitOf Recipe Tallies

structure Manner where
  /-- Prints the number of parsed sources after the text. -/
  leaks : Bool := false
  /-- A reset has no effect. -/
  sticks : Bool := false
  /-- Keeps track of its calls. -/
  traces : Bool := false
  deriving DecidableEq, Repr

namespace Manner

def plain : Manner := {}

def note (m : Manner) (c : Call) (w : Workings) : Workings :=
  if m.traces then { w with calls := w.calls ++ [(c, w.parsed)] } else w

@[simp] theorem parsed_note (m : Manner) (c : Call) (w : Workings) :
    (m.note c w).parsed = w.parsed := by
  unfold note
  split <;> rfl

/-- What is printed of a tree after so many parsed sources. -/
def printed (m : Manner) (tree : Source) (parsed : Nat) : String :=
  if m.leaks then s!"{tree.text} #{parsed}" else tree.text

end Manner

/-- What a plain-text parser is fitted with: which sources it refuses, what a recipe does to a tree,
and what is printed of a tree when so many sources were parsed since the last reset. -/
structure Fittings (ρ σ : Type) where
  refusal? : String → Option Fault
  apply : ρ → Source → σ → Except Fault Source × σ × Bool
  printed : Source → Nat → String

/-- Why a source cannot be read in a character set. -/
def refusal? (charset source : String) : Option Fault :=
  match Text.Charset.named? charset with
  | none => some (.breakdown .lookup s!"unknown encoding: {charset}")
  | some set => (set.refusal? source).map (.breakdown .encoding)

def parseRecord (source : String) (level : Int) : Record :=
  Concord.Source.plainText.record .debug s!"Parsed {source.length} characters at level {level}"

def Fittings.parser {ρ σ : Type} (f : Fittings ρ σ) (level : Int) (m : Manner) :
    Parser (kitOf ρ σ) where
  label := s!"PlainTextParser(language_level={level})"
  reset w t :=
    let w := m.note .reset w
    { result := .ok (), own := if m.sticks then w else { w with parsed := 0 }, shared := t }
  parse source w t :=
    let w := m.note .parse w
    match f.refusal? source with
    | some fault => { result := .error fault, own := w, shared := t }
    | none =>
        { result := .ok ⟨source, level, []⟩
          own := { w with parsed := w.parsed + 1 }
          shared := t
          records := [parseRecord source level] }
  transform tree recipe w t :=
    let (result, t', slow) := f.apply recipe tree t
    { result, own := m.note .apply w, shared := t', slow }
  print tree w t := { result := .ok (f.printed tree w.parsed), own := m.note .print w, shared := t }
  diagnostics tree w t :=
    { result := .ok tree.markers, own := m.note .diagnostics w, shared := t }

namespace Fittings

variable {ρ σ : Type} (f : Fittings ρ σ) (level : Int) (m : Manner)

theorem reset_eq (w : Workings) (t : σ) :
    (f.parser level m).reset w t =
      { result := .ok ()
        own := if m.sticks then m.note .reset w else { m.note .reset w with parsed := 0 }
        shared := t } := rfl

theorem parse_of_refusal {source : String} {fault : Fault} (refused : f.refusal? source = some fault)
    (w : Workings) (t : σ) :
    (f.parser level m).parse source w t =
      { result := .error fault, own := m.note .parse w, shared := t } := by
  dsimp -iota only [parser]
  rw [refused]

theorem parse_of_none {source : String} (read : f.refusal? source = none) (w : Workings) (t : σ) :
    (f.parser level m).parse source w t =
      { result := .ok ⟨source, level, []⟩
        own := { m.note .parse w with parsed := w.parsed + 1 }
        shared := t
        records := [parseRecord source level] } := by
  dsimp -iota only [parser]
  rw [read, Manner.parsed_note]

theorem transform_eq (tree : Source) (r : ρ) (w : Workings) (t : σ) :
    (f.parser level m).transform tree r w t =
      { result := (f.apply r tree t).1
        own := m.note .apply w
        shared := (f.apply r tree t).2.1
        slow := (f.apply r tree t).2.2 } := rfl

theorem print_eq (tree : Source) (w : Workings) (t : σ) :
    (f.parser level m).print tree w t =
      { result := .ok (f.printed tree w.parsed), own := m.note .print w, shared := t } := rfl

theorem diagnostics_eq (tree : Source) (w : Workings) (t : σ) :
    (f.parser level m).diagnostics tree w t =
      { result := .ok tree.markers, own := m.note .diagnostics w, shared := t } := rfl

end Fittings

/-- The fittings of the reference backends. -/
def fittings (charset : String) (m : Manner) : Fittings Recipe Tallies :=
  ⟨PlainText.refusal? charset, Recipe.apply, m.printed⟩

def parser (level : Int) (charset : String) (m : Manner) : Parser kit :=
  (fittings charset m).parser level m

/-- A parser that takes no notice of recipes and prints every text with the same ending. -/
def minimal (ending : String) : Parser kit where
  label := "Minimal"
  reset w t := { result := .ok (), own := w, shared := t }
  parse source w t := { result := .ok ⟨source, 0, []⟩, own := w, shared := t }
  transform tree _ w t := { result := .ok tree, own := w, shared := t }
  print tree w t := { result := .ok (tree.text ++ ending), own := w, shared := t }
  diagnostics _ w t := { result := .ok [], own := w, shared := t }

end Concord.PlainText
