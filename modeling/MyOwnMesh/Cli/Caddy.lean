import MyOwnMesh.Lib.Search
import MyOwnMesh.Lib.Text

/-!
# The managed blocks of a Caddyfile

The pure helpers of `crates/myownmesh/src/cli/caddy.rs` that put the relay's site blocks and the
Layer 4 block into an operator's Caddyfile. A text is the list of its characters; an offset counts
characters.
-/

namespace MyOwnMesh.Caddy

open Lib.Text Lib.Search

abbrev Text := List Char

/-- A number in decimal. -/
def decimal (n : UInt16) : Text := Nat.toDigits 10 n.toNat

def beginWord : Text := "# >>> myownmesh-managed: ".toList

def endWord : Text := "# <<< myownmesh-managed: ".toList

/-- `caddy.rs:294–296`. -/
def beginMarker (host : Text) : Text := beginWord ++ host

/-- `caddy.rs:297–299`. -/
def endMarker (host : Text) : Text := endWord ++ host

/-- A site block behind its host. -/
def siteOpen : Text :=
  " \x7b\n".toList ++
  "\t@ws \x7b\n".toList ++
  "\t\theader Connection *Upgrade*\n".toList ++
  "\t\theader Upgrade websocket\n".toList ++
  "\t\x7d\n".toList ++
  "\thandle @ws \x7b\n".toList ++
  "\t\treverse_proxy 127.0.0.1:".toList

/-- A site block behind its port. -/
def siteMiddle : Text :=
  "\n".toList ++
  "\t\x7d\n".toList ++
  "\thandle \x7b\n".toList ++
  "\t\trespond \"MyOwnMesh signaling relay — connect over wss://\" 200\n".toList ++
  "\t\x7d\n".toList ++
  "\x7d\n\n".toList

/-- A site block behind its TURN host. -/
def siteClose : Text :=
  " \x7b\n".toList ++
  "\trespond \"MyOwnMesh TURN relay — use turn:/turns:, not HTTPS\" 200\n".toList ++
  "\x7d\n".toList

/-- The site block of a host; `caddy.rs:305–322`. -/
def siteBlock (host turnHost : Text) (port : UInt16) : Text :=
  host ++ siteOpen ++ decimal port ++ siteMiddle ++ turnHost ++ siteClose

/-- What is fenced for a host. -/
def managedBlock (host turnHost : Text) (port : UInt16) : Text :=
  beginMarker host ++ ['\n'] ++ siteBlock host turnHost port ++ endMarker host ++ ['\n']

/-! ### The Layer 4 block -/

def layer4Begin : Text := "# >>> myownmesh-turn-layer4".toList

def layer4End : Text := "# <<< myownmesh-turn-layer4".toList

/-- The Layer 4 block behind its first marker. -/
def layer4Open : Text :=
  "\n".toList ++
  "layer4 \x7b\n".toList ++
  "\ttcp/:".toList

/-- The Layer 4 block between its TLS port and its TURN host. -/
def layer4Match : Text :=
  " \x7b\n".toList ++
  "\t\t@turn tls sni ".toList

/-- The Layer 4 block between its TURN host and its TURN port. -/
def layer4Route : Text :=
  "\n".toList ++
  "\t\troute @turn \x7b\n".toList ++
  "\t\t\ttls\n".toList ++
  "\t\t\tproxy tcp/127.0.0.1:".toList

/-- The Layer 4 block behind its TURN port. -/
def layer4Close : Text :=
  "\n".toList ++
  "\t\t\x7d\n".toList ++
  "\t\x7d\n".toList ++
  "\x7d\n".toList

/-- `caddy.rs:380–392`. -/
def layer4Block (turnHost : Text) (turnPort turnsPort : UInt16) : Text :=
  layer4Begin ++ layer4Open ++ decimal turnsPort ++ layer4Match ++ turnHost ++ layer4Route ++
    decimal turnPort ++ layer4Close ++ layer4End ++ ['\n']

/-- Put a pad before every line; `caddy.rs:466–474`. -/
def indent (s pad : Text) : Text := (linesFrom [] s).flatMap fun line ↦ pad ++ line ++ ['\n']

/-- The opening brace of the global options block, if it is the first meaningful line;
`caddy.rs:440–454`. The lines keep their line feeds, and `offset` characters are before them. -/
def globalOptionsOpen (offset : Nat) : List Text → Option Nat
  | [] => none
  | line :: rest =>
    let meaningful := line.dropWhile isWhitespace
    if meaningful.all isWhitespace ∨ meaningful.head? = some '#' then
      globalOptionsOpen (offset + line.length) rest
    else if meaningful.head? = some '\x7b' then
      some (offset + (line.length - meaningful.length))
    else none

/-- `str::split_inclusive('\n')`. The line read so far is held in reverse. -/
def splitInclusive (line : Text) : Text → List Text
  | [] => if line = [] then [] else [line.reverse]
  | c :: rest =>
    if c = '\n' then (c :: line).reverse :: splitInclusive [] rest
    else splitInclusive (c :: line) rest

/-- How far the brace is that closes the block; `caddy.rs:414–432`. -/
def closingBrace (depth : Nat) : Text → Option Nat
  | [] => none
  | c :: rest =>
    if c = '\x7b' then (closingBrace (depth + 1) rest).map (· + 1)
    else if c = '\x7d' then
      if depth - 1 = 0 then some 0 else (closingBrace (depth - 1) rest).map (· + 1)
    else (closingBrace depth rest).map (· + 1)

/-- Where the global options block closes, if the text has one. -/
def globalOptionsClose (text : Text) : Option Nat := do
  let offset ← globalOptionsOpen 0 (splitInclusive [] text)
  let relative ← closingBrace 0 (text.drop offset)
  return offset + relative

/-- Where the line starts that the text ends in, and that line; the start of a block that is
replaced, `caddy.rs:395–399`. -/
def splitLastLine (text : Text) : Text × Text :=
  match rsplitOnceChars '\n' text with
  | some (lines, line) => (lines ++ ['\n'], line)
  | none => ([], text)

/-- The first line of a new global options block. -/
def globalOpen : Text := "\x7b\n".toList

/-- The end of a new global options block, and an empty line. -/
def globalClose : Text := "\x7d\n\n".toList

/-- Insert or replace the Layer 4 block; `caddy.rs:372–435`. -/
def upsertLayer4Global (existing turnHost : Text) (turnPort turnsPort : UInt16) : Text :=
  let block := layer4Block turnHost turnPort turnsPort
  match find layer4Begin existing, find layer4End existing with
  | some (upToBegin, _), some (_, fromEnd) =>
    let after := fromEnd.drop layer4End.length
    let (lineStart, leading) := splitLastLine upToBegin
    let replaced :=
      if leading.all fun c ↦ c = ' ' ∨ c = '\t' then lineStart ++ indent block leading
      else upToBegin ++ block
    replaced ++ after.dropWhile (· = '\n')
  | _, _ =>
    match globalOptionsClose existing with
    | some close =>
      existing.take close ++ ['\n'] ++ indent block ['\t'] ++ existing.drop close
    | none => globalOpen ++ indent block ['\t'] ++ globalClose ++ existing

theorem upsertLayer4Global_of_absent {existing : Text} (h : find layer4Begin existing = none)
    (turnHost : Text) (turnPort turnsPort : UInt16) :
    upsertLayer4Global existing turnHost turnPort turnsPort =
      let block := indent (layer4Block turnHost turnPort turnsPort) ['\t']
      match globalOptionsClose existing with
      | some close => existing.take close ++ ['\n'] ++ block ++ existing.drop close
      | none => globalOpen ++ block ++ globalClose ++ existing := by
  unfold upsertLayer4Global
  cases hfound : find layer4Begin existing with
  | none => rfl
  | some found => cases hfound.symm.trans h

/-! ### The site blocks -/

/-- What separates a new block from the content before it; `caddy.rs:360–367`. -/
def separator (existing : Text) : Text :=
  if existing ≠ [] ∧ ¬ "\n\n".toList.isSuffixOf existing then
    if "\n".toList.isSuffixOf existing then "\n".toList else "\n\n".toList
  else []

/-- The text with the fenced block of the host replaced, if it has one; `caddy.rs:343–357`. -/
def replaceManaged (existing host managed : Text) : Option Text := do
  let (before, _) ← find (beginMarker host) existing
  let (upToEnd, fromEnd) ← find (endMarker host) existing
  if before.length < upToEnd.length then
    let rest := fromEnd.drop (endMarker host).length
    some (before ++ managed ++ (afterChars ['\n'] rest).getD rest)
  else none

/-- Insert or replace the managed blocks; `caddy.rs:330–370`. -/
def upsertManagedBlock (existing host turnHost : Text) (port turnPort turnsPort : UInt16) : Text :=
  let managed := managedBlock host turnHost port
  let out := (replaceManaged existing host managed).getD (existing ++ separator existing ++ managed)
  upsertLayer4Global out turnHost turnPort turnsPort

end MyOwnMesh.Caddy
