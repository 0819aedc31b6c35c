import ShapeCheck.Text.Numeral

/-!
# Environment files

An environment file binds names to texts, one binding a line.  A binding may follow
the word `export`; its text may stand in single or double quotes, in which some
characters are escaped, or run to the end of the line or to a comment.  A line that is
no binding is passed over.  In the texts, a name in braces after a dollar sign stands
for what it is bound to.
-/

namespace ShapeCheck.EnvFile

def isLineEnd (c : Char) : Bool := c = '\n' || c = '\r'

def isInlineBlank (c : Char) : Bool := Text.isBlank c && !isLineEnd c

/-- Drops blank space within a line. -/
def skipBlank (cs : List Char) : List Char := cs.dropWhile isInlineBlank

/-- Splits off the text before a closing quote; a quote after a backslash does not
close. -/
def quotedText? (mark : Char) : List Char → Option (List Char × List Char)
  | [] => none
  | '\\' :: c :: rest =>
    if c = mark then
      (quotedText? mark rest).map fun (content, more) => ('\\' :: c :: content, more)
    else
      (quotedText? mark (c :: rest)).map fun (content, more) => ('\\' :: content, more)
  | c :: rest =>
    if c = mark then some ([], rest)
    else (quotedText? mark rest).map fun (content, more) => (c :: content, more)
termination_by cs => cs.length

/-- The character that an escaped character stands for between double quotes. -/
def unescaped? (c : Char) : Option Char :=
  if c = '\\' || c = '\'' || c = '"' then some c
  else if c = 'a' then some (Char.ofNat 7)
  else if c = 'b' then some (Char.ofNat 8)
  else if c = 'f' then some (Char.ofNat 12)
  else if c = 'n' then some '\n'
  else if c = 'r' then some '\r'
  else if c = 't' then some '\t'
  else if c = 'v' then some (Char.ofNat 11)
  else none

/-- Replaces the escapes that a reader knows; any other backslash stays. -/
def decodeEscapes (known : Char → Option Char) : List Char → List Char
  | '\\' :: c :: rest =>
    match known c with
    | some d => d :: decodeEscapes known rest
    | none => '\\' :: decodeEscapes known (c :: rest)
  | c :: rest => c :: decodeEscapes known rest
  | [] => []
termination_by cs => cs.length

/-- The escapes between single quotes. -/
def singleEscape? (c : Char) : Option Char :=
  if c = '\\' || c = '\'' then some c else none

/-- Cuts a text off where blank space is followed by a comment. -/
def cutComment : List Char → List Char
  | [] => []
  | c :: rest =>
    if Text.isBlank c && (rest.dropWhile Text.isBlank).head? = some '#' then []
    else c :: cutComment rest

/-- Reads the text of a binding. -/
def value? (cs : List Char) : Option (List Char × List Char) :=
  match cs with
  | '\'' :: rest =>
    (quotedText? '\'' rest).map fun (content, more) => (decodeEscapes singleEscape? content, more)
  | '"' :: rest =>
    (quotedText? '"' rest).map fun (content, more) => (decodeEscapes unescaped? content, more)
  | cs =>
    let line := cs.takeWhile fun c => !isLineEnd c
    let kept := (((cutComment line).reverse).dropWhile Text.isBlank).reverse
    some (kept, cs.drop line.length)

/-- Drops the word that may introduce a binding. -/
def skipExport (cs : List Char) : List Char :=
  if "export".toList.isPrefixOf cs then
    let rest := cs.drop 6
    if (rest.head?.map isInlineBlank).getD false then skipBlank rest else cs
  else cs

/-- Reads the name of a binding; a comment has none. -/
def key? (cs : List Char) : Option (Option String × List Char) :=
  match cs with
  | '#' :: _ => some (none, cs)
  | '\'' :: rest =>
    let name := rest.takeWhile (· ≠ '\'')
    match name, rest.drop name.length with
    | _ :: _, '\'' :: more => some (some (String.ofList name), more)
    | _, _ => none
  | cs =>
    let name := cs.takeWhile fun c => c ≠ '=' && c ≠ '#' && !Text.isBlank c
    if name.isEmpty then none else some (some (String.ofList name), cs.drop name.length)

/-- Reads what may follow a binding on its line: blank space and a comment. -/
def lineEnd? (cs : List Char) : Option (List Char) :=
  let rest := skipBlank cs
  let rest := if rest.head? = some '#' then rest.dropWhile fun c => !isLineEnd c else rest
  match skipBlank rest with
  | [] => some []
  | '\r' :: '\n' :: more => some more
  | c :: more => if isLineEnd c then some more else none

/-- Reads one binding; a name may stand without a text. -/
def binding? (cs : List Char) : Option (Option (String × Option String) × List Char) := do
  let (key, rest) ← key? (skipExport cs)
  let rest := skipBlank rest
  let (content, rest) ← match rest with
    | '=' :: more => (value? (skipBlank more)).map fun (content, more) =>
        (some (String.ofList content), more)
    | more => some (none, more)
  let rest ← lineEnd? rest
  return (key.map fun name => (name, content), rest)

/-- Reads all bindings, given at least as many steps as there are characters. -/
def bindingsWithin : Nat → List Char → List (String × Option String)
  | 0, _ => []
  | steps + 1, cs =>
    match cs.dropWhile Text.isBlank with
    | [] => []
    | start =>
      match binding? start with
      | some (some found, rest) => found :: bindingsWithin steps rest
      | some (none, rest) => bindingsWithin steps rest
      | none => bindingsWithin steps ((start.dropWhile fun c => !isLineEnd c).drop 1)

/-- The bindings of a file before names in their texts are replaced. -/
def bindings (file : String) : List (String × Option String) :=
  bindingsWithin (file.length + 1) file.toList

/-- Reads a reference to a name after its opening brace: the name, what to use when it
is not bound, and the rest. -/
def reference? (cs : List Char) : Option (String × String × List Char) :=
  let name := cs.takeWhile fun c => c ≠ '\x7d' && c ≠ ':'
  match cs.drop name.length with
  | '\x7d' :: more => some (String.ofList name, "", more)
  | ':' :: '-' :: more =>
    let fallback := more.takeWhile (· ≠ '\x7d')
    match more.drop fallback.length with
    | '\x7d' :: rest => some (String.ofList name, String.ofList fallback, rest)
    | _ => none
  | _ => none

/-- Replaces the references in a text, given at least as many steps as characters. -/
def expandWithin (lookup : String → Option String) : Nat → List Char → List Char
  | 0, cs => cs
  | _ + 1, [] => []
  | steps + 1, '$' :: '\x7b' :: rest =>
    match reference? rest with
    | some (name, fallback, more) =>
      ((lookup name).getD fallback).toList ++ expandWithin lookup steps more
    | none => '$' :: expandWithin lookup steps ('\x7b' :: rest)
  | steps + 1, c :: rest => c :: expandWithin lookup steps rest

/-- The bindings of a file, with names in their texts replaced by what they are bound
to earlier in the file or else in the surroundings. -/
def load (file : String) (surroundings : List (String × String)) : List (String × String) :=
  (bindings file).foldl (fun bound (name, content) =>
    match content with
    | none => bound
    | some s =>
      let lookup (wanted : String) :=
        (bound.reverse.lookup wanted).or (surroundings.lookup wanted)
      bound ++ [(name, String.ofList (expandWithin lookup (s.length + 1) s.toList))]) []

end ShapeCheck.EnvFile
