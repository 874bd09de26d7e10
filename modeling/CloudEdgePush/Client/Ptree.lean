import CloudEdgePush.Client.BytesBuffer

/-!
# Property trees

`boost::property_tree`, as far as the client uses it: trees of strings, the lookups of its
readers and the puts of its writers.  `jsonBytes` is the text of `write_json`; a `std::string`
has one `Char` for each byte.
-/

namespace CloudEdgePush.Client

inductive Ptree
  | node (data : String) (children : List (String × Ptree))
deriving Repr, Inhabited

namespace Ptree

def leaf (data : String) : Ptree := node data []

def empty : Ptree := leaf ""

def data : Ptree → String
  | node data _ => data

def children : Ptree → List (String × Ptree)
  | node _ children => children

/-- `get_child_optional`, for a path of one key. -/
def child? (t : Ptree) (key : String) : Option Ptree := t.children.lookup key

def getString? (t : Ptree) (key : String) : Option String := (t.child? key).map data

def putChildren (key : String) (sub : Ptree) : List (String × Ptree) → List (String × Ptree)
  | [] => [(key, sub)]
  | (k, t) :: rest => if k = key then (k, sub) :: rest else (k, t) :: putChildren key sub rest

/-- `put_child`, for a path of one key; `put` is the same with a leaf for a new key. -/
def putChild (t : Ptree) (key : String) (sub : Ptree) : Ptree :=
  node t.data (putChildren key sub t.children)

def put (t : Ptree) (key value : String) : Ptree := t.putChild key (leaf value)

def pushBack (t child : Ptree) : Ptree := node t.data (t.children ++ [("", child)])

/-! ## `write_json` -/

def hexDigit (n : Nat) : Char := "0123456789ABCDEF".toList.getD n '0'

/-- `create_escapes`, for one character. -/
def escapeChar (c : Char) : List Char :=
  if c = '"' then ['\\', '"']
  else if c = '\\' then ['\\', '\\']
  else if c = '/' then ['\\', '/']
  else if c = '\n' then ['\\', 'n']
  else if c = '\r' then ['\\', 'r']
  else if c = '\t' then ['\\', 't']
  else if c.toNat = 8 then ['\\', 'b']
  else if c.toNat = 12 then ['\\', 'f']
  else if c.toNat < 0x20 then
    ['\\', 'u', '0', '0', hexDigit (c.toNat / 16), hexDigit (c.toNat % 16)]
  else [c]

def quoted (s : String) : List Char := '"' :: s.toList.flatMap escapeChar ++ ['"']

def margin (indent : Nat) : List Char := List.replicate (4 * indent) ' '

/-- `write_json_helper`: what a tree is depends on its place and its keys. -/
def brackets (indent : Nat) (children : List (String × Ptree)) : Char × Char :=
  if 0 < indent ∧ children.all (fun child => child.1 == "") then ('[', ']') else ('\x7b', '\x7d')

mutual

def jsonChars (indent : Nat) : Ptree → List Char
  | node data [] => if 0 < indent then quoted data else ['\x7b', '\n', '\x7d']
  | node _ (child :: rest) =>
      let (left, right) := brackets indent (child :: rest)
      [left, '\n'] ++ jsonMembers indent (left = '\x7b') (child :: rest) ++ margin indent ++ [right]

def jsonMembers (indent : Nat) (keys : Bool) : List (String × Ptree) → List Char
  | [] => []
  | (key, t) :: rest =>
      margin (indent + 1) ++ (if keys then quoted key ++ [':', ' '] else []) ++
        jsonChars (indent + 1) t ++ (if rest.isEmpty then ['\n'] else [',', '\n']) ++
        jsonMembers indent keys rest

end

def jsonBytes (t : Ptree) : Bytes := (jsonChars 0 t ++ ['\n']).map fun c => UInt8.ofNat c.toNat

end Ptree

end CloudEdgePush.Client
