import GoAgent.Foundation.Text

/-!
# JSON text

`Json.dumps` is Python's `json.dumps`: the separators between items and after keys, and whether
characters outside ASCII are escaped, are the fields of a `JsonStyle`.
-/

namespace GoAgent.Foundation

inductive Json where
  | null
  | bool (b : Bool)
  | int (n : Int)
  | str (s : String)
  | arr (items : List Json)
  | obj (fields : List (String × Json))

structure JsonStyle where
  item : List Char := [',', ' ']
  key : List Char := [':', ' ']
  ensureAscii : Bool := true

/-- `json.dumps(…, ensure_ascii=False)` -/
def JsonStyle.unicode : JsonStyle := { ensureAscii := false }

/-- `json.dumps(…, separators=(",", ":"))` -/
def JsonStyle.compact : JsonStyle := { item := [','], key := [':'] }

/-- `0123456789abcdef[n]` -/
def hexDigit (n : Nat) : Char :=
  if n < 10 then Char.ofNat (48 + n) else Char.ofNat (87 + n)

/-- `\uXXXX` -/
def unicodeEscape (n : Nat) : List Char :=
  ['\\', 'u', hexDigit (n / 4096 % 16), hexDigit (n / 256 % 16), hexDigit (n / 16 % 16),
    hexDigit (n % 16)]

def escapeChar (ensureAscii : Bool) (c : Char) : List Char :=
  if c = '"' then ['\\', '"']
  else if c = '\\' then ['\\', '\\']
  else if c = '\n' then ['\\', 'n']
  else if c = '\r' then ['\\', 'r']
  else if c = '\t' then ['\\', 't']
  else if c.toNat = 8 then ['\\', 'b']
  else if c.toNat = 12 then ['\\', 'f']
  else if c.toNat < 32 then unicodeEscape c.toNat
  else if ensureAscii && 126 < c.toNat then
    -- a code point beyond the first plane is written as a surrogate pair
    if c.toNat < 0x10000 then unicodeEscape c.toNat
    else unicodeEscape (0xD800 + (c.toNat - 0x10000) / 1024) ++
      unicodeEscape (0xDC00 + (c.toNat - 0x10000) % 1024)
  else [c]

def dumpString (ensureAscii : Bool) (s : String) : List Char :=
  '"' :: s.toList.flatMap (escapeChar ensureAscii) ++ ['"']

def dumpInt : Int → List Char
  | .ofNat n => Nat.toDigits 10 n
  | .negSucc n => '-' :: Nat.toDigits 10 (n + 1)

mutual

def Json.dumps (k : JsonStyle) : Json → List Char
  | .null => ['n', 'u', 'l', 'l']
  | .bool true => ['t', 'r', 'u', 'e']
  | .bool false => ['f', 'a', 'l', 's', 'e']
  | .int n => dumpInt n
  | .str s => dumpString k.ensureAscii s
  | .arr items => '[' :: dumpItems k items ++ [']']
  | .obj fields => '{' :: dumpFields k fields ++ ['}']
termination_by structural j => j

def dumpItems (k : JsonStyle) : List Json → List Char
  | [] => []
  | [v] => v.dumps k
  | v :: v' :: vs => v.dumps k ++ k.item ++ dumpItems k (v' :: vs)
termination_by structural items => items

def dumpFields (k : JsonStyle) : List (String × Json) → List Char
  | [] => []
  | [f] => dumpField k f
  | f :: f' :: fs => dumpField k f ++ k.item ++ dumpFields k (f' :: fs)
termination_by structural fields => fields

def dumpField (k : JsonStyle) : String × Json → List Char
  | (name, v) => dumpString k.ensureAscii name ++ k.key ++ v.dumps k
termination_by structural field => field

end

example : (Json.obj [("a", .str "x\n"), ("b", .arr [.bool true, .int (-12)])]).dumps .compact =
    "\x7b\"a\":\"x\\n\",\"b\":[true,-12]\x7d".toList := by decide +kernel

end GoAgent.Foundation
