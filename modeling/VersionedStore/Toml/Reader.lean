/-
  VersionedStore.Toml.Reader

  The document in a TOML text: first its lines, as sections of keys and values,
  then the tables that they add up to.  A text that breaks a rule of either kind
  is no document at all.
-/
import VersionedStore.Toml.Value

namespace VersionedStore.Toml

/-- The lines of a text: those above the first header, and the sections. -/
structure Lines where
  pairs : List (Key × Document)
  sections : List Section

/-- What one line holds. -/
inductive Line where
  | blank
  | pair (key : Key) (d : Document)
  | header (key : Key) (opening : Opening)

/-- A header after its opening brackets. -/
def header (opening : Opening) : Part Line := fun cs => do
  let (key, cs) ← key cs
  let cs ← mark? ']' cs
  match opening with
  | .table => some (.header key .table, cs)
  | .element => some (.header key .element, ← mark? ']' cs)

/-- The content of a line, up to spaces and a comment at its end. -/
def lineContent (cs : List Char) : Option (Line × List Char) :=
  match skipSpaces cs with
  | [] => some (.blank, [])
  | '#' :: cs => some (.blank, '#' :: cs)
  | '\n' :: cs => some (.blank, '\n' :: cs)
  | '\r' :: cs => some (.blank, '\r' :: cs)
  | '[' :: '[' :: cs => header .element cs
  | '[' :: cs => header .table cs
  | cs => (pair value cs).map fun ((key, d), rest) => (.pair key d, rest)

/-- Put a line in front of the others. -/
def Lines.cons (l : Lines) : Line → Lines
  | .blank => l
  | .pair key d => { l with pairs := (key, d) :: l.pairs }
  | .header key opening => ⟨[], ⟨key, opening, l.pairs⟩ :: l.sections⟩

/-- The lines of a text, of at most `fuel` lines. -/
def lines : Nat → List Char → Option Lines
  | 0, _ => none
  | _, [] => some ⟨[], []⟩
  | fuel + 1, cs => do
    let (line, cs) ← lineContent cs
    let rest ← lines fuel (← endOfLine? cs)
    some (rest.cons line)

/-- The document that lines add up to. -/
def Lines.document (l : Lines) : Option Document := do
  let top ← Entries.putAll l.pairs []
  let top ← l.sections.foldlM (fun top s => s.enter top) top
  some top.document

/-- The document in a text, which may start with a byte order mark. -/
def read (text : String) : Option Document := do
  let cs :=
    match text.toList with
    | '\ufeff' :: cs => cs
    | cs => cs
  let l ← lines (cs.length + 1) cs
  l.document

end VersionedStore.Toml
