/-!
Laying out nested groups of text on lines of limited width. A group that fits on the rest of its
line keeps all its breaks closed. Otherwise a consistent group opens all of them, and an
inconsistent one only those after which the text up to the next break would not fit.
-/

namespace SchemaBindings.Code.Layout

/-- The width of a line. -/
def margin : Int := 89

/-- The width that is left to a line however far it is indented. -/
def minimumRoom : Int := 60

/-- A width that no line has. -/
def unfitting : Nat := 65535

/-- A place where a line may end. -/
structure Break where
  /-- The indentation of the next line, relative to that of the group. -/
  offset : Int := 0
  /-- The blanks that stand here if the line goes on. -/
  blanks : Nat := 0
  /-- What is added before the line end. -/
  before : String := ""
  /-- What is added at the beginning of the next line. -/
  after : String := ""
  /-- What is added if the line goes on. -/
  inside : String := ""
  /-- Whether the line always goes on. -/
  never : Bool := false
deriving Repr

inductive Doc where
  | text (s : String)
  /-- Nothing that could be seen, but no group that holds it fits on a line. -/
  | strut
  | line (b : Break)
  | group (consistent : Bool) (offset : Int) (body : List Doc)
deriving Inhabited

mutual

/-- The width of a document on one line. -/
def Doc.width : Doc → Nat
  | .text s => s.utf8ByteSize
  | .strut => unfitting
  | .line b => b.blanks
  | .group _ _ body => widths body

def widths : List Doc → Nat
  | [] => 0
  | d :: ds => d.width + widths ds

end

/-- The width up to the first break among the documents, or else through all of them and up to the
next break after them. -/
def reach (after : Nat) : List Doc → Nat
  | [] => after
  | .line _ :: _ => 0
  | d :: ds => d.width + reach after ds

/-- How the breaks of the innermost group behave. -/
inductive Frame where
  | closed
  | consistent
  | inconsistent
deriving DecidableEq

/-- The text so far, the width left on its last line, and the blanks owed before the next text. -/
structure Pen where
  out : String := ""
  room : Int := margin
  owed : Nat := 0

namespace Pen

def payBlanks (p : Pen) : Pen :=
  { p with out := p.out ++ String.ofList (List.replicate p.owed ' '), owed := 0 }

def write (p : Pen) (s : String) : Pen :=
  let paid := p.payBlanks
  { paid with out := paid.out ++ s, room := paid.room - s.utf8ByteSize }

/-- Goes on with the line. -/
def stay (p : Pen) (b : Break) : Pen :=
  { p with
    out := p.out ++ b.inside, owed := p.owed + b.blanks
    room := p.room - b.blanks - b.inside.utf8ByteSize }

/-- Ends the line. Blanks owed at its end are dropped. -/
def turn (p : Pen) (indent : Int) (b : Break) : Pen :=
  let ended :=
    if b.before.isEmpty then p else { p.payBlanks with out := p.payBlanks.out ++ b.before }
  let column := indent + b.offset
  let next : Pen := ⟨ended.out ++ "\n", max (margin - column) minimumRoom, column.toNat⟩
  if b.after.isEmpty then next else next.write b.after

end Pen

mutual

/-- Draws a document in a group with an indentation; `ahead` is the width from its end to the next
break. -/
def Doc.draw (frame : Frame) (indent : Int) (ahead : Nat) (p : Pen) : Doc → Pen
  | .text s => p.write s
  | .strut => p
  | .line b =>
    let stays := b.never || match frame with
      | .closed => true
      | .consistent => false
      | .inconsistent => (b.blanks + ahead : Int) ≤ p.room
    if stays then p.stay b else p.turn indent b
  | .group consistent offset body =>
    if (widths body + ahead : Int) ≤ p.room then drawAll .closed indent ahead p body
    else drawAll (if consistent then .consistent else .inconsistent) (indent + offset) ahead p body

def drawAll (frame : Frame) (indent : Int) (ahead : Nat) (p : Pen) : List Doc → Pen
  | [] => p
  | d :: ds => drawAll frame indent ahead (d.draw frame indent (reach ahead ds) p) ds

end

/-- The text of documents, laid out. -/
def render (ds : List Doc) : String :=
  (drawAll .inconsistent 0 0 {} ds).out

end SchemaBindings.Code.Layout
