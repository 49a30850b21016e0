import McpSocketServer.Python.Value
import Mathlib.Algebra.Group.Int.Defs
import Mathlib.Algebra.Group.Nat.Defs

/-!
# Standard-library functions and byte formats

The codecs that the program calls, as parameters of the model without any law, and the
`struct` formats `i` and `<Q` that frame the messages.
-/

namespace McpSocketServer

/-- The codecs of Python's standard library. -/
structure Runtime where
  /-- `json.dumps(j).encode()`. -/
  dumps : Json → Bytes
  /-- `b.decode("utf-8", "replace")`. -/
  decode : Bytes → String
  /-- `json.loads(s)` of a string. -/
  loads : String → Except PyErr Json
  /-- `json.loads(b)` of bytes. -/
  loadsBytes : Bytes → Except PyErr Json
  /-- `gzip.decompress(b)`. -/
  decompress : Bytes → Except PyErr Bytes
  /-- `base64.b64encode(b).decode()`. -/
  b64encode : Bytes → String

/-- A text without characters beyond ASCII as bytes. -/
def asciiBytes (s : String) : Bytes := s.toList.map fun c => UInt8.ofNat c.toNat

/-- The codecs on ASCII texts, for concrete runs: the JSON texts of the table are the ones that
are read, and `dumped` is the one that is written. -/
def tableRuntime (known : List (String × Json)) (dumped : String) : Runtime where
  dumps _ := asciiBytes dumped
  decode b := String.ofList (b.map fun x => Char.ofNat x.toNat)
  loads s := (known.lookup s).elim (.error ⟨.valueError, "Expecting value"⟩) .ok
  loadsBytes b := (known.lookup (String.ofList (b.map fun x => Char.ofNat x.toNat))).elim
    (.error ⟨.valueError, "Expecting value"⟩) .ok
  decompress _ := .error ⟨.osError, "Not a gzipped file"⟩
  b64encode _ := ""

/-- A number as `n` little-endian bytes. -/
def packLE : Nat → Nat → Bytes
  | 0, _ => []
  | n + 1, v => UInt8.ofNat v :: packLE n (v / 256)

/-- The number that little-endian bytes stand for. -/
def unpackLE : Bytes → Nat
  | [] => 0
  | b :: bs => b.toNat + 256 * unpackLE bs

/-- `struct.unpack("i", b)[0]` of four bytes. -/
def unpackInt (b : Bytes) : Int :=
  if unpackLE b < 2 ^ 31 then (unpackLE b : Int) else (unpackLE b : Int) - 2 ^ 32

theorem packLE_length (n v : Nat) : (packLE n v).length = n := by
  induction n generalizing v with
  | zero => rfl
  | succ n ih => simp [packLE, ih]

/-- Packing into enough bytes loses nothing. -/
theorem unpackLE_packLE {n v : Nat} (h : v < 256 ^ n) : unpackLE (packLE n v) = v := by
  induction n generalizing v with
  | zero =>
      have hv : v = 0 := by simpa using h
      simp [packLE, unpackLE, hv]
  | succ n ih =>
      have hdiv : v / 256 < 256 ^ n := Nat.div_lt_of_lt_mul (by rwa [Nat.pow_succ'] at h)
      rw [packLE, unpackLE, ih hdiv, UInt8.toNat_ofNat']
      omega

/-- A length that fits the format `i` is read back. -/
theorem unpackInt_packLE {v : Nat} (h : v < 2 ^ 31) : unpackInt (packLE 4 v) = v := by
  have hv : unpackLE (packLE 4 v) = v := unpackLE_packLE (by omega)
  rw [unpackInt, hv, if_pos h]

end McpSocketServer
