import MoveTx.Text.Hex
import MoveTx.Yaml.Scalar.Folding

/-!
# Quoted scalars

Between single quotes a doubled quote stands for itself, and between double quotes a backslash begins
an escape. Both kinds may run over lines, but not over a marker of the start or the end of a document.
-/

namespace MoveTx.Yaml

/-- Reads up to the closing single quote. -/
def singleQuoted? : Folding → Place → List Char → Option (String × Cursor)
  | _, _, [] => none
  | t, p, c :: rest =>
    if p.column = 0 && startsMarker (c :: rest) then none
    else if c = '\'' then
      match rest with
      | '\'' :: rest => singleQuoted? (t.push c) ((p.after c).after c) rest
      | rest => some (t.text, ⟨rest, p.after c⟩)
    else singleQuoted? (t.add c) (p.after c) rest

/-! ### Escapes -/

/-- What a letter after a backslash stands for. -/
def escaped? (c : Char) : Option Char :=
  match c with
  | '0' => some (Char.ofNat 0)
  | 'a' => some (Char.ofNat 7)
  | 'b' => some (Char.ofNat 8)
  | 't' | '\t' => some '\t'
  | 'n' => some '\n'
  | 'v' => some (Char.ofNat 11)
  | 'f' => some (Char.ofNat 12)
  | 'r' => some '\r'
  | 'e' => some (Char.ofNat 27)
  | 'N' => some (Char.ofNat 0x85)
  | '_' => some (Char.ofNat 0xa0)
  | 'L' => some (Char.ofNat 0x2028)
  | 'P' => some (Char.ofNat 0x2029)
  | ' ' | '"' | '/' | '\\' => some c
  | _ => none

/-- How many digits of a code point follow a letter after a backslash. -/
def escapeWidth? (c : Char) : Option Nat :=
  match c with
  | 'x' => some 2
  | 'u' => some 4
  | 'U' => some 8
  | _ => none

/-- The character of a code point in hex digits. -/
def codePoint? (digits : List Char) : Option Char := do
  let values ← digits.mapM Hex.value?
  let n := values.foldl (fun n d => 16 * n + d) 0
  if h : n.isValidChar then return Char.ofNatAux n h else none

/-- The escape after a backslash: the character it stands for, or none for the end of the line, and the
count of characters it takes up. -/
def escape? : List Char → Option (Option Char × Nat)
  | [] => none
  | c :: rest =>
    if isBreak c then some (none, 1)
    else
      match escapeWidth? c with
      | some width => do
        let digits := rest.take width
        if digits.length < width then none else return (some (← codePoint? digits), width + 1)
      | none => do return (some (← escaped? c), 1)

/-- Reads up to the closing double quote. `pending` counts characters that belong to an escape already
read. -/
def doubleQuoted? : (pending : Nat) → Folding → Place → List Char → Option (String × Cursor)
  | _, _, _, [] => none
  | pending + 1, t, p, c :: rest => doubleQuoted? pending t (p.after c) rest
  | 0, t, p, c :: rest =>
    if p.column = 0 && startsMarker (c :: rest) then none
    else if c = '"' then some (t.text, ⟨rest, p.after c⟩)
    else if c = '\\' then
      match escape? rest with
      | some (some d, width) => doubleQuoted? width (t.push d) (p.after c) rest
      | some (none, width) => doubleQuoted? width t.joinLine (p.after c) rest
      | none => none
    else doubleQuoted? 0 (t.add c) (p.after c) rest

/-- The quoted scalar that begins at a quote of either kind. -/
def quoted? (cur : Cursor) : Option (String × Cursor) :=
  let inside := cur.skip 1
  if cur.rest.head? = some '"' then doubleQuoted? 0 .empty inside.place inside.rest
  else singleQuoted? .empty inside.place inside.rest

end MoveTx.Yaml
