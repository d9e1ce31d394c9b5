import SchemaBindings.Code.Ident
import SchemaBindings.Code.Print.Basic
import SchemaBindings.Code.Token

/-!
Pieces of code as they are written: by their tokens and their layout. Of some pieces only the tokens
are known, and then also of everything that is put together with them.
-/

namespace SchemaBindings.Code

open Layout (Doc)
open Print

structure Written where
  tokens : List Token := []
  /-- The layout, if it is known. -/
  layout : Option (List Doc) := some []
deriving Inhabited

namespace Written

instance : Append Written where
  append w w' := ⟨w.tokens ++ w'.tokens, do return (← w.layout) ++ (← w'.layout)⟩

/-- A piece of which nothing is known but its tokens. -/
def ofTokens (ts : List Token) : Written :=
  ⟨ts, none⟩

/-- What belongs to the layout alone. -/
def ofDocs (ds : List Doc) : Written :=
  ⟨[], some ds⟩

def ident (i : Ident) : Written :=
  ⟨[.word i.text], some (text i.text)⟩

/-- A word and the blank behind it. -/
def word (w : String) : Written :=
  ⟨[.word w], some (text (w ++ " "))⟩

/-- An operator as it is shown. -/
def operator (o shown : String) : Written :=
  ⟨Token.operator o, some (text shown)⟩

/-- Words, each with the blank behind it. -/
def words (ws : List String) : Written :=
  ⟨ws.map .word, some (text (String.join (ws.map (· ++ " "))))⟩

/-- The layout as a group. -/
def grouped (consistent : Bool) (offset : Int) (w : Written) : Written :=
  { w with layout := w.layout.map fun ds => [.group consistent offset ds] }

/-- Pieces with their tokens and their layouts put together in their own ways. -/
def combine (joinTokens : List (List Token) → List Token) (joinDocs : List (List Doc) → List Doc)
    (ws : List Written) : Written :=
  ⟨joinTokens (ws.map Written.tokens), (ws.mapM Written.layout).map joinDocs⟩

/-- Pieces behind each other. -/
def join (ws : List Written) : Written :=
  combine List.flatten List.flatten ws

/-- The tokens as a group, with brackets around the layout. -/
def enclosed (d : Delimiter) (opening closing : String) (w : Written) : Written :=
  ⟨[.group d w.tokens], w.layout.map fun ds => .text opening :: (ds ++ text closing)⟩

/-- A head and lines in braces behind it. -/
def braced (head inner : Written) : Written :=
  ⟨head.tokens ++ [.group .brace inner.tokens], do
    return [.group true 4 ((← head.layout) ++ .text "\x7b" :: lines (← inner.layout)),
      .text "\x7d", hardBreak]⟩

/-- A piece on lines of its own. -/
def statement (offset : Int) (w : Written) : Written :=
  w.grouped true offset ++ ofDocs [hardBreak]

end Written

end SchemaBindings.Code
