import Criteria.Settings.Toml.Line

/-!
TOML texts. A text is printable throughout; its tokens form lines, and each line adds to what the lines
before it define.
-/

namespace Criteria.Settings.Toml

/-- A text read up to some line: what it defines, and the table that the next entries belong to. -/
structure Document where
  root : Node
  current : List String

namespace Document

def empty : Document :=
  ⟨.empty, []⟩

def add? (d : Document) : Line → Option Document
  | .table key => (d.root.openTable? key).map (⟨·, key.path⟩)
  | .next key => (d.root.openNext? key).map (⟨·, key.path⟩)
  | .entry key v => (Node.within? .implied (Node.define? key v) d.current d.root).map (⟨·, d.current⟩)

end Document

def withoutMark (s : List Char) : List Char :=
  if s.head? = some '\uFEFF' then s.drop 1 else s

def parse? (text : String) : Option Value := do
  let s := withoutMark text.toList
  if !isPrintable s then none
  let d ← (← lines? (← tokens? s)).foldlM Document.add? .empty
  return d.root.toValue

end Criteria.Settings.Toml
