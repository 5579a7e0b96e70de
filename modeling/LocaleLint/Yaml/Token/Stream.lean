import LocaleLint.Yaml.Token.BlockScalar
import LocaleLint.Yaml.Token.FlowScalar
import LocaleLint.Yaml.Token.Plain
import LocaleLint.Yaml.Token.Property

/-! # The tokens of a text

The text is read token by token. Indentation opens and closes block collections, and a key without a
mark of its own is known only by the colon after it: a token that may start such a key is remembered
until the colon comes, and the key mark is then put in front of it. The colon has to come on the same
line within 1024 characters.

A text that breaks down still has the tokens before it that nothing can be put in front of any more. -/

namespace LocaleLint.Yaml

/-- A place where a key without a mark may have started. -/
structure PendingKey where
  /-- The number of flow collections around it. -/
  level : Nat
  /-- The number of tokens before it. -/
  tokenIndex : Nat
  /-- Whether the text is wrong if it turns out to be no key. -/
  required : Bool
  index : Nat
  line : Nat
  column : Nat
  deriving Inhabited

/-- What is known between two tokens. -/
structure Layout where
  cursor : Cursor
  /-- The tokens so far, the last one first. -/
  tokens : List Token
  /-- The number of tokens so far. -/
  count : Nat
  /-- The number of flow collections around the cursor. -/
  flowLevel : Nat
  /-- The column of the innermost block collection, `-1` outside of all. -/
  indent : Int
  /-- The columns of the block collections around that one. -/
  outer : List Int
  /-- Whether a key without a mark may start here. -/
  keyAllowed : Bool
  pending : List PendingKey
  deriving Inhabited

namespace Layout

def start (s : List Char) (cut : Option LoadError) : Layout :=
  { cursor := .ofText s cut, tokens := [], count := 0, flowLevel := 0, indent := -1, outer := [], keyAllowed := true,
    pending := [] }

/-- The tokens that no key mark can be put among any more. -/
def settled (s : Layout) : List Token :=
  let settled := s.pending.foldl (fun n key => min n key.tokenIndex) s.count
  (s.tokens.drop (s.count - settled)).reverse

/-- The layout with one more token, after the first `index` ones. -/
def insertAt (s : Layout) (index : Nat) (token : Token) : Layout :=
  { s with tokens := s.tokens.insertIdx (s.count - index) token, count := s.count + 1 }

end Layout

/-- A step from one layout to the next. -/
abbrev Step := StateT Layout (Except LoadError)

namespace Step

def malformed {α : Type} : Step α := throw .malformed

/-- Reads from the cursor. -/
def read {α : Type} (reader : Reader α) : Step α := do
  let s ← get
  match reader s.cursor with
  | .ok (a, cursor) =>
    set { s with cursor }
    return a
  | .error e => throw e

def push (token : Token) : Step Unit := modify fun s => { s with tokens := token :: s.tokens, count := s.count + 1 }

def allowKey (allowed : Bool) : Step Unit := modify fun s => { s with keyAllowed := allowed }

/-! ### Keys without a mark -/

/-- Whether a key that started at a place can no longer end at the cursor. -/
def isStale (cursor : Cursor) (key : PendingKey) : Bool :=
  key.line != cursor.line || cursor.index - key.index > 1024

/-- Forgets the keys that can no longer end; a required one may not be forgotten. -/
def dropStale : Step Unit := do
  let s ← get
  let (stale, pending) := s.pending.partition (isStale s.cursor)
  if stale.any (·.required) then malformed
  set { s with pending }

/-- Forgets the key of this flow level. -/
def dropKey : Step Unit := do
  let s ← get
  let (here, pending) := s.pending.partition (·.level == s.flowLevel)
  if here.any (·.required) then malformed
  set { s with pending }

/-- Remembers that a key may start here. -/
def saveKey : Step Unit := do
  let s ← get
  if s.keyAllowed then
    dropKey
    let key : PendingKey :=
      { level := s.flowLevel, tokenIndex := s.count
        required := s.flowLevel == 0 && s.indent == (s.cursor.column : Int)
        index := s.cursor.index, line := s.cursor.line, column := s.cursor.column }
    modify fun s => { s with pending := key :: s.pending }

/-! ### Indentation -/

/-- Leaves the block collections that are indented more than a column. -/
def unwindFrom (column : Int) : List Int → Step Unit
  | [] => return
  | wider :: outer => do
    if (← get).indent > column then
      modify fun s => { s with indent := wider, outer }
      push .blockEnd
      unwindFrom column outer

def unwind (column : Int) : Step Unit := do
  let s ← get
  if s.flowLevel == 0 then unwindFrom column s.outer

/-- Enters a block collection at a column, if that is indented more than the innermost one. -/
def enter (column : Nat) : Step Bool := do
  let s ← get
  if s.indent < (column : Int) then
    set { s with indent := (column : Int), outer := s.indent :: s.outer }
    return true
  else return false

/-! ### The kinds of tokens -/

/-- Blanks, comments and empty lines. -/
def skipToToken : Nat → Step Unit
  | 0 => return
  | n + 1 => do
    read Reader.skipComment
    unless (← read Reader.lineEnd).isEmpty do
      if (← get).flowLevel == 0 then allowKey true
      skipToToken n

def skipByteOrderMark : Step Unit := do
  let cursor := (← get).cursor
  if cursor.index == 0 && startsWith '\ufeff' cursor.rest then read (Reader.skip 1)

/-- A token that stands in a text by itself, in a document's first column. -/
def fetchAtMargin (reader : Reader Token) : Step Unit := do
  unwind (-1)
  dropKey
  allowKey false
  push (← read reader)

def fetchMark (length : Nat) (token : Token) : Step Unit := do
  read (Reader.skip length)
  push token

def fetchFlowStart (token : Token) : Step Unit := do
  saveKey
  modify fun s => { s with flowLevel := s.flowLevel + 1, keyAllowed := true }
  fetchMark 1 token

def fetchFlowEnd (token : Token) : Step Unit := do
  dropKey
  modify fun s => { s with flowLevel := s.flowLevel - 1, keyAllowed := false }
  fetchMark 1 token

def fetchFlowEntry : Step Unit := do
  allowKey true
  dropKey
  fetchMark 1 .flowEntry

def fetchBlockEntry : Step Unit := do
  let s ← get
  if s.flowLevel == 0 then
    unless s.keyAllowed do malformed
    if ← enter s.cursor.column then push .blockSequenceStart
  allowKey true
  dropKey
  fetchMark 1 .blockEntry

/-- A place where a mapping may start in block context. -/
def enterMapping : Step Unit := do
  let s ← get
  if s.flowLevel == 0 then
    unless s.keyAllowed do malformed
    if ← enter s.cursor.column then push .blockMappingStart

def fetchKey : Step Unit := do
  enterMapping
  allowKey ((← get).flowLevel == 0)
  dropKey
  fetchMark 1 .key

/-- Puts the mark of a key in front of the token that started it, and the start of its mapping in front
    of that if the key is the first one. -/
def markKey (key : PendingKey) : Step Unit := do
  modify fun s => { s.insertAt key.tokenIndex .key with pending := s.pending.filter (·.level != s.flowLevel) }
  if (← get).flowLevel == 0 then
    if ← enter key.column then
      modify (·.insertAt key.tokenIndex .blockMappingStart)
  allowKey false

def fetchValue : Step Unit := do
  let s ← get
  match s.pending.find? (·.level == s.flowLevel) with
  | some key => markKey key
  | none =>
    enterMapping
    allowKey ((← get).flowLevel == 0)
    dropKey
  fetchMark 1 .value

/-- A token that may start a key. -/
def fetchWord (reader : Reader Token) : Step Unit := do
  saveKey
  allowKey false
  push (← read reader)

def fetchBlockScalar (folded : Bool) : Step Unit := do
  allowKey true
  dropKey
  let outer := (← get).indent
  push (.scalar (← read (Token.readBlock folded outer)) false)

def fetchPlain : Step Unit := do
  saveKey
  let s ← get
  let (text, newLine) ← read (Token.readPlain (s.flowLevel != 0) s.indent)
  allowKey newLine
  push (.scalar text true)

/-- Whether a character separates tokens or has a meaning of its own at the start of one. -/
def isIndicator (c : Char) : Bool :=
  isSeparator c || "-?:,[]\x7b\x7d#&*!|>\x27\x22%@`".toList.contains c

/-- Whether a plain scalar may start with this text. -/
def startsPlain (inFlow : Bool) (s : List Char) : Bool :=
  match s with
  | [] => false
  | c :: rest =>
    !isIndicator c ||
      (!startsApart rest && (c == '-' || (!inFlow && (c == '?' || c == ':'))))

def fetchToken (s : List Char) : Step Unit := do
  let layout ← get
  let inFlow := layout.flowLevel != 0
  let atMargin := layout.cursor.column == 0
  let apart := startsApart (s.drop 1)
  match s.head? with
  | none => malformed
  | some c =>
    if atMargin && (c == '-' || c == '.') then let _ ← read Reader.atDocumentMark
    if c == '-' || c == '?' || c == ':' then read (Reader.lookAhead 1)
    if c == '%' && atMargin then fetchAtMargin Token.readDirective
    else if atMargin && startsMark '-' s then
      fetchAtMargin do Reader.skip 3; return .documentStart
    else if atMargin && startsMark '.' s then
      fetchAtMargin do Reader.skip 3; return .documentEnd
    else if c == '[' then fetchFlowStart .flowSequenceStart
    else if c == '\x7b' then fetchFlowStart .flowMappingStart
    else if c == ']' then fetchFlowEnd .flowSequenceEnd
    else if c == '\x7d' then fetchFlowEnd .flowMappingEnd
    else if c == ',' then fetchFlowEntry
    else if c == '-' && apart then fetchBlockEntry
    else if c == '?' && (inFlow || apart) then fetchKey
    else if c == ':' && (inFlow || apart) then fetchValue
    else if c == '*' then fetchWord do return .alias (← Token.readName)
    else if c == '&' then fetchWord do return .anchor (← Token.readName)
    else if c == '!' then fetchWord Token.readTag
    else if c == '|' && !inFlow then fetchBlockScalar false
    else if c == '>' && !inFlow then fetchBlockScalar true
    else if c == '\x27' then fetchWord do return .scalar (← Token.readQuoted false) false
    else if c == '\x22' then fetchWord do return .scalar (← Token.readQuoted true) false
    else
      if isIndicator c then read (Reader.lookAhead 1)
      if startsPlain inFlow s then fetchPlain else malformed

/-- Reads on to the next token and over it; `false` at the end of the text. -/
def advance : Step Bool := do
  skipByteOrderMark
  skipToToken (← read Reader.bound)
  dropStale
  unwind (← get).cursor.column
  let rest := (← get).cursor.rest
  if rest.isEmpty then
    unwind (-1)
    dropKey
    return false
  else
    fetchToken rest
    return true

end Step

namespace Tokens

/-- Reads tokens up to the end of the text, at most a number of them. -/
def scanFrom : Nat → Layout → Tokens
  | 0, layout => ⟨layout.settled, some .malformed⟩
  | n + 1, layout =>
    match Step.dropStale layout with
    | .error e => ⟨layout.settled, some e⟩
    | .ok (_, layout) =>
      match Step.advance layout with
      | .error e => ⟨layout.settled, some e⟩
      | .ok (true, next) => scanFrom n next
      | .ok (false, next) => ⟨next.tokens.reverse, none⟩

def scan (s : List Char) (cut : Option LoadError) : Tokens := scanFrom (s.length + 1) (Layout.start s cut)

end Tokens

end LocaleLint.Yaml
