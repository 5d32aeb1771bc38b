/-
# From characters to tokens

Indentation opens and closes block collections. A node that may turn out to be
the key of a block or flow mapping is remembered, one for each level of flow,
by the number of its token; when its colon comes, the tokens that open the key
are put in front of it. A key must lie on one line and within 1024 characters
of its colon. A node of a block mapping that stands where only a key can stand
must become one.
-/

import Rollout.Yaml.Block
import Rollout.Yaml.Plain
import Rollout.Yaml.Property
import Rollout.Yaml.Quoted

namespace Rollout
namespace Yaml

/-- A node that may become a key. -/
structure KeyCandidate where
  required : Bool
  /-- The number of the node's first token. -/
  token : Nat
  index : Nat
  line : Nat
  column : Nat
  deriving Repr

/-- What has been read and what may follow. -/
structure Scanner where
  cursor : Cursor
  /-- The tokens so far, the last one first. -/
  tokens : List Token
  candidate : Option KeyCandidate
  /-- The candidates of the levels around the current level of flow. -/
  outer : List (Option KeyCandidate)
  /-- The column of the current block collection, and -1 outside of all. -/
  indent : Int
  indents : List Int
  /-- A key may start here. -/
  keyAllowed : Bool
  deriving Repr

namespace Scanner

/-- Nothing has been read. -/
def start (cs : List Char) : Scanner :=
  ⟨.start cs, [], none, [], -1, [], true⟩

/-- The scanner is within a flow collection. -/
def inFlow (s : Scanner) : Bool :=
  !s.outer.isEmpty

/-- The scanner with a further token. -/
def add (s : Scanner) (t : Token) : Scanner :=
  { s with tokens := t :: s.tokens }

/-- The scanner with a further token and the place after it. -/
def addRun (s : Scanner) (r : TokenRun) : Scanner :=
  { s with tokens := r.token :: s.tokens, cursor := r.cursor }

/-- The scanner with a token of one character. -/
def addIndicator (s : Scanner) (t : Token) : Scanner :=
  s.addRun ⟨t, s.cursor.next⟩

/-- The scanner with a token in front of the token with a number. -/
def insert (s : Scanner) (number : Nat) (t : Token) : Scanner :=
  let (after, before) := s.tokens.splitAt (s.tokens.length - number)
  { s with tokens := after ++ t :: before }

/-- Skips gaps, comments and breaks up to the next token. Tabs count as gaps in
flow and where no key can start. -/
def skipToToken (flow keyAllowed comment : Bool) (index line column : Nat) :
    List Char → Cursor × Bool
  | [] => (⟨[], index, line, column⟩, keyAllowed)
  | c :: cs =>
    if isBreak c then skipToToken flow (keyAllowed || !flow) false (index + 1) (line + 1) 0 cs
    else if comment || c == ' ' || (c == '\t' && (flow || !keyAllowed)) ||
        (c == byteOrderMark && column == 0) then
      skipToToken flow keyAllowed comment (index + 1) line (column + 1) cs
    else if c == '#' then skipToToken flow keyAllowed true (index + 1) line (column + 1) cs
    else (⟨c :: cs, index, line, column⟩, keyAllowed)

/-- Moves to the next token. -/
def toToken (s : Scanner) : Scanner :=
  let c := s.cursor
  let (c, keyAllowed) := skipToToken s.inFlow s.keyAllowed false c.index c.line c.column c.rest
  { s with cursor := c, keyAllowed := keyAllowed }

/-- The candidate as long as its key can still end here; a required one must
not be given up. -/
def stillOpen? (c : Cursor) : Option KeyCandidate → Option (Option KeyCandidate)
  | none => some none
  | some k =>
    if k.line < c.line || k.index + 1024 < c.index then
      if k.required then none else some none
    else some (some k)

/-- Gives up the candidates whose keys can no longer end here. -/
def dropStale? (s : Scanner) : Option Scanner := do
  let candidate ← stillOpen? s.cursor s.candidate
  let outer ← s.outer.mapM (stillOpen? s.cursor)
  return { s with candidate := candidate, outer := outer }

/-- Gives up the current candidate. -/
def dropCandidate? (s : Scanner) : Option Scanner :=
  match s.candidate with
  | some k => if k.required then none else some { s with candidate := none }
  | none => some s

/-- Remembers the node that starts here as a candidate, if a key may start
here. -/
def saveCandidate? (s : Scanner) : Option Scanner :=
  if s.keyAllowed then
    match s.dropCandidate? with
    | none => none
    | some s =>
      let c := s.cursor
      let required := !s.inFlow && s.indent == c.column
      some { s with candidate := some ⟨required, s.tokens.length, c.index, c.line, c.column⟩ }
  else some s

/-- Closes the block collections that are indented more than a column. -/
def closeBlocks (s : Scanner) (column : Int) : Scanner :=
  if s.inFlow then s
  else
    let closed := (s.indent :: s.indents).takeWhile (· > column)
    let remaining := (s.indent :: s.indents).drop closed.length
    { s with
      tokens := closed.map (fun _ => Token.blockEnd) ++ s.tokens
      indent := remaining.headD (-1)
      indents := remaining.tail }

/-- Opens a block collection at a column that is indented more than the current
one, in front of the token with a number. -/
def openBlock (s : Scanner) (column number : Nat) (t : Token) : Scanner :=
  if !s.inFlow && s.indent < column then
    { s.insert number t with indent := column, indents := s.indent :: s.indents }
  else s

/-- Opens a block collection here. -/
def openBlockHere (s : Scanner) (t : Token) : Scanner :=
  s.openBlock s.cursor.column s.tokens.length t

/-- Reads the end of the stream. -/
def streamEnd? (s : Scanner) : Option Scanner := do
  let s ← (s.closeBlocks (-1)).dropCandidate?
  return s.add .streamEnd

/-- Reads a token at the start of a line that ends all collections. -/
def topLevel? (s : Scanner) (run : Cursor → Option TokenRun) : Option Scanner := do
  let s ← (s.closeBlocks (-1)).dropCandidate?
  let r ← run s.cursor
  return { s.addRun r with keyAllowed := false }

/-- Reads the start of a flow collection. -/
def flowStart? (s : Scanner) (t : Token) : Option Scanner := do
  let s ← s.saveCandidate?
  return { s.addIndicator t with
    candidate := none, outer := s.candidate :: s.outer, keyAllowed := true }

/-- Reads the end of a flow collection. -/
def flowEnd? (s : Scanner) (t : Token) : Option Scanner := do
  let s ← s.dropCandidate?
  let s := { s.addIndicator t with keyAllowed := false }
  match s.outer with
  | [] => return s
  | k :: outer => return { s with candidate := k, outer := outer }

/-- Reads a comma between the entries of a flow collection. -/
def flowEntry? (s : Scanner) : Option Scanner := do
  let s ← s.dropCandidate?
  return { s.addIndicator .flowEntry with keyAllowed := true }

/-- Reads the hyphen of an entry. -/
def blockEntry? (s : Scanner) : Option Scanner := do
  if !s.inFlow && !s.keyAllowed then none
  let s ← (s.openBlockHere .blockSequenceStart).dropCandidate?
  return { s.addIndicator .blockEntry with keyAllowed := true }

/-- Reads the question mark of a key. -/
def key? (s : Scanner) : Option Scanner := do
  if !s.inFlow && !s.keyAllowed then none
  let s ← (s.openBlockHere .blockMappingStart).dropCandidate?
  return { s.addIndicator .key with keyAllowed := !s.inFlow }

/-- Reads the colon of a value. -/
def value? (s : Scanner) : Option Scanner :=
  match s.candidate with
  | some k =>
    let s := (s.insert k.token .key).openBlock k.column k.token .blockMappingStart
    some { s.addIndicator .value with candidate := none, keyAllowed := false }
  | none =>
    if !s.inFlow && !s.keyAllowed then none
    else
      let s := s.openBlockHere .blockMappingStart
      some { s.addIndicator .value with keyAllowed := !s.inFlow }

/-- Reads a token that starts a node. -/
def node? (s : Scanner) (run : Cursor → Option TokenRun) : Option Scanner := do
  let s ← s.saveCandidate?
  let r ← run s.cursor
  return { s.addRun r with keyAllowed := false }

/-- Reads a name after an indicator. -/
def named? (make : List Char → Token) (c : Cursor) : Option TokenRun :=
  match name? c.next with
  | some (name, c) => some ⟨make name, c⟩
  | none => none

/-- Reads a scalar between quotes. -/
def quoted? (single : Bool) (c : Cursor) : Option TokenRun :=
  let c := c.next
  let run := if single then singleQuoted? .empty c.index c.line c.column c.rest
    else doubleQuoted? .empty c.index c.line c.column c.rest
  match run with
  | some r => some ⟨.scalar r.text false, r.cursor⟩
  | none => none

/-- Reads a plain scalar. -/
def plainScalar? (s : Scanner) : Option Scanner := do
  let s ← s.saveCandidate?
  let c := s.cursor
  let r ← plain? s.inFlow (s.indent + 1).toNat .empty c.index c.line c.column c.rest
  return { s.addRun ⟨.scalar r.text true, r.cursor⟩ with keyAllowed := r.endsInBreak }

/-- Reads a block scalar. -/
def blockText? (s : Scanner) (literal : Bool) : Option Scanner := do
  let s ← s.dropCandidate?
  let r ← blockScalar? literal s.indent s.cursor.next
  return { s.addRun ⟨.scalar r.text false, r.cursor⟩ with keyAllowed := true }

/-- The document mark that stands here. -/
def documentMark (c : Cursor) : Option TokenRun :=
  match c.rest with
  | '-' :: _ => some ⟨.documentStart, c.advance 3⟩
  | _ => some ⟨.documentEnd, c.advance 3⟩

/-- A character that starts no plain scalar. -/
def isIndicator (c : Char) : Bool :=
  ['-', '?', ':', ',', '[', ']', '{', '}', '#', '&', '*', '!', '|', '>', '\'', '"', '%', '@',
    '\x60'].contains c

/-- A plain scalar can start with these characters. -/
def startsPlain (flow : Bool) (c : Char) (rest : List Char) : Bool :=
  !isIndicator c && !isGapOrBreak c || c == '-' && !(rest.head?.any isGap) ||
    !flow && (c == '?' || c == ':') && !atBlank rest

/-- Reads the token that starts with a character. -/
def token? (s : Scanner) (c : Char) (rest : List Char) : Option Scanner :=
  let flow := s.inFlow
  if s.cursor.column = 0 && c == '%' then s.topLevel? directive?
  else if s.cursor.column = 0 && startsDocumentMark (c :: rest) then s.topLevel? documentMark
  else if c = '[' then s.flowStart? .flowSequenceStart
  else if c = '{' then s.flowStart? .flowMappingStart
  else if c = ']' then s.flowEnd? .flowSequenceEnd
  else if c = '}' then s.flowEnd? .flowMappingEnd
  else if c = ',' then s.flowEntry?
  else if c = '-' && atBlank rest then s.blockEntry?
  else if c = '?' && (flow || atBlank rest) then s.key?
  else if c = ':' && (flow || atBlank rest) then s.value?
  else if c = '*' then s.node? (named? .alias)
  else if c = '&' then s.node? (named? .anchor)
  else if c = '!' then s.node? (tag? flow)
  else if c = '|' && !flow then s.blockText? true
  else if c = '>' && !flow then s.blockText? false
  else if c = '\'' then s.node? (quoted? true)
  else if c = '"' then s.node? (quoted? false)
  else if startsPlain flow c rest then s.plainScalar?
  else none

/-- Reads the tokens from here on. Every token takes a character at least. -/
def run? (s : Scanner) : Option Scanner :=
  match (s.toToken.dropStale?).map fun t => t.closeBlocks t.cursor.column with
  | none => none
  | some t =>
    match t.cursor.rest with
    | [] => t.streamEnd?
    | c :: rest =>
      match t.token? c rest with
      | none => none
      | some u => if u.cursor.rest.length < s.cursor.rest.length then run? u else none
termination_by s.cursor.rest.length

end Scanner

/-- The tokens of a text. -/
def tokens? (cs : List Char) : Option (List Token) := do
  let cs ← characters? cs
  let s ← (Scanner.start cs).run?
  return s.tokens.reverse

end Yaml
end Rollout
