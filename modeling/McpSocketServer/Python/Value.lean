import McpSocketServer.Python.Text

/-!
# Python values and exceptions

JSON documents as `json.loads` returns them, the values that a client function may
return, truth values, `str` and `repr`, and the exceptions that the program raises
and catches. A float is carried by its `repr`, which determines it.
-/

namespace McpSocketServer

/-- Python `bytes`. -/
abbrev Bytes := List UInt8

/-- A value of `json.loads`. The fields of an object stand in insertion order. -/
inductive Json where
  | null
  | bool (b : Bool)
  | int (n : Int)
  | float (repr : String)
  | str (s : String)
  | arr (items : List Json)
  | obj (fields : List (String × Json))
  deriving Inhabited

/-- What a client function returns to the code that runs it: a JSON value (`None` is
`Json.null`, `False` is `Json.bool false`) or raw bytes. -/
inductive PyVal where
  | json (j : Json)
  | bytes (b : Bytes)
  deriving Inhabited

/-- The exception classes that the program tells apart, by what its `except` clauses name. -/
inductive ErrKind where
  | timeoutError | blockingIOError | connectionError | osError
  | valueError | assertionError | attributeError | typeError | structError | other
  deriving DecidableEq, Repr

/-- A raised exception: its class and `str(e)`. -/
structure PyErr where
  kind : ErrKind
  message : String
  deriving DecidableEq, Repr

/-- `isinstance(e, OSError)`. -/
def PyErr.isOSError (e : PyErr) : Bool :=
  match e.kind with
  | .timeoutError | .blockingIOError | .connectionError | .osError => true
  | _ => false

/-! ### `repr` and `str` -/

/-- One lower-case hexadecimal digit. -/
def hexDigit (n : Nat) : Char := "0123456789abcdef".toList.getD n '0'

/-- The last `width` hexadecimal digits of a number. -/
def hexDigits : Nat → Nat → List Char
  | 0, _ => []
  | width + 1, n => hexDigits width (n / 16) ++ [hexDigit (n % 16)]

/-- The escape of a code point, as long as it has to be. -/
def hexEscape (n : Nat) : List Char :=
  if n < 0x100 then ['\x5c', 'x'] ++ hexDigits 2 n
  else if n < 0x10000 then ['\x5c', 'u'] ++ hexDigits 4 n
  else ['\x5c', 'U'] ++ hexDigits 8 n

/-- One character inside a `repr` quoted by `quote`. -/
def reprChar (quote c : Char) : List Char :=
  if c = quote ∨ c = '\x5c' then ['\x5c', c]
  else if c = '\n' then ['\x5c', 'n']
  else if c = '\r' then ['\x5c', 'r']
  else if c = '\t' then ['\x5c', 't']
  else if isPrintableChar c then [c]
  else hexEscape c.toNat

/-- `repr(s)` of a string: single quotes, unless only these occur in it. -/
def reprStr (s : String) : String :=
  let quote := if '\x27' ∈ s.toList ∧ '\x22' ∉ s.toList then '\x22' else '\x27'
  String.ofList (quote :: s.toList.flatMap (reprChar quote) ++ [quote])

/-- The `ValueError` of `int(s)`, whose message shows at most 200 characters of the text. -/
def intError (s : String) : PyErr :=
  match excessDigits (intSign s).2 with
  | some n =>
    ⟨.valueError, "Exceeds the limit (4300 digits) for integer string conversion: value has " ++
      toString n ++ " digits; use sys.set_int_max_str_digits() to increase the limit"⟩
  | none =>
    ⟨.valueError, "invalid literal for int() with base 10: " ++
      String.ofList ((reprStr s).toList.take 200)⟩

/-- `repr` of a tuple of strings. -/
def reprTuple : List String → String
  | [] => "()"
  | [a] => "(" ++ reprStr a ++ ",)"
  | as => "(" ++ ", ".intercalate (as.map reprStr) ++ ")"

mutual
/-- `repr(j)` of a JSON value. -/
def Json.repr : Json → String
  | .null => "None"
  | .bool true => "True"
  | .bool false => "False"
  | .int n => toString n
  | .float r => r
  | .str s => reprStr s
  | .arr items => "[" ++ ", ".intercalate (Json.reprItems items) ++ "]"
  | .obj fields => "\x7b" ++ ", ".intercalate (Json.reprFields fields) ++ "\x7d"
/-- The items of a list display. -/
def Json.reprItems : List Json → List String
  | [] => []
  | j :: js => j.repr :: Json.reprItems js
/-- The items of a dict display. -/
def Json.reprFields : List (String × Json) → List String
  | [] => []
  | (k, j) :: fs => (reprStr k ++ ": " ++ j.repr) :: Json.reprFields fs
end

/-- `str(j)`: a string is itself, any other value its `repr`. -/
def Json.toStr : Json → String
  | .str s => s
  | j => j.repr

mutual
/-- The texts in a JSON value: its strings and the keys of its objects. -/
def Json.texts : Json → List String
  | .str s => [s]
  | .arr items => Json.textsOfItems items
  | .obj fields => Json.textsOfFields fields
  | _ => []
/-- The texts in the items of a list. -/
def Json.textsOfItems : List Json → List String
  | [] => []
  | j :: js => j.texts ++ Json.textsOfItems js
/-- The keys of an object and the texts in its values. -/
def Json.textsOfFields : List (String × Json) → List String
  | [] => []
  | (k, j) :: fs => k :: (j.texts ++ Json.textsOfFields fs)
end

/-! ### Truth values and dictionary access -/

/-- `bool(j)`. -/
def Json.truthy : Json → Bool
  | .null => false
  | .bool b => b
  | .int n => n != 0
  | .float r => r != "0.0" && r != "-0.0"
  | .str s => s != ""
  | .arr items => !items.isEmpty
  | .obj fields => !fields.isEmpty

/-- `isinstance(j, dict) and k in j`. -/
def Json.hasKey (k : String) : Json → Bool
  | .obj fields => (fields.lookup k).isSome
  | _ => false

/-- The name Python's messages use for the type of `j`. -/
def Json.typeName : Json → String
  | .null => "NoneType"
  | .bool _ => "bool"
  | .int _ => "int"
  | .float _ => "float"
  | .str _ => "str"
  | .arr _ => "list"
  | .obj _ => "dict"

/-- `d.get(k, default)` of a dictionary given by its fields. -/
def fieldD (fields : List (String × Json)) (k : String) (default : Json) : Json :=
  (fields.lookup k).getD default

/-- `j.get(k, default)`, which only a dictionary has. -/
def Json.get (j : Json) (k : String) (default : Json) : Except PyErr Json :=
  match j with
  | .obj fields => .ok (fieldD fields k default)
  | j => .error ⟨.attributeError, "'" ++ j.typeName ++ "' object has no attribute 'get'"⟩

/-- `bool(v)` of what a client function returned. -/
def PyVal.truthy : PyVal → Bool
  | .json j => j.truthy
  | .bytes b => !b.isEmpty

@[simp] theorem Json.get_obj (fields : List (String × Json)) (k : String) (default : Json) :
    (Json.obj fields).get k default = .ok (fieldD fields k default) := rfl

@[simp] theorem Json.hasKey_obj (fields : List (String × Json)) (k : String) :
    (Json.obj fields).hasKey k = (fields.lookup k).isSome := rfl

/-- The text of an object begins with an opening brace. -/
theorem Json.toStr_obj_toList (fields : List (String × Json)) :
    ∃ rest, (Json.obj fields).toStr.toList = '\x7b' :: rest := by
  simp only [Json.toStr, Json.repr, String.toList_append]
  exact ⟨_, rfl⟩

example : (Json.obj [("res", .bool true), ("n", .arr [.int 3, .null])]).repr =
    "\x7b'res': True, 'n': [3, None]\x7d" := by decide

end McpSocketServer
