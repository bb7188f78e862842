import Mathlib.Data.List.Nodup
import Mathlib.Data.List.Perm.Basic

namespace HanaCompat

@[simp] theorem toNat_byte (n : Nat) : (UInt8.ofNat n).toNat = n % 256 := rfl

def hasPrefix (s pre : String) : Bool := pre.toList.isPrefixOf s.toList

def containsChar (s : String) (c : Char) : Bool := s.toList.contains c

def splitChars (sep : Char) : List Char → List (List Char)
  | [] => [[]]
  | c :: cs =>
    if c = sep then [] :: splitChars sep cs
    else
      match splitChars sep cs with
      | [] => [[c]]
      | w :: ws => (c :: w) :: ws

/-- `strings.Split` for a one-character separator. -/
def split (s : String) (sep : Char) : List String := (splitChars sep s.toList).map String.mk

/-- Modelled from the spec: `types.ObjectID`, absent from src/, twelve bytes, seconds then
process then counter. -/
structure ObjectID where
  bytes : List UInt8
  length_eq : bytes.length = 12
deriving DecidableEq

/-- Modelled from the spec: a value of the closed BSON type set, as a `types.Document`
holds it. A float64 is kept as its IEEE-754 bits; a nested document is its ordered pairs;
an array is the `*types.Array` a document stores. -/
inductive Value where
  | double (bits : UInt64)
  | string (s : String)
  | document (pairs : List (String × Value))
  | array (elems : List Value)
  | bool (b : Bool)
  | datetime (ms : BitVec 64)
  | null
  | int32 (v : BitVec 32)
  | int64 (v : BitVec 64)
  | objectID (id : ObjectID)
  | regex (pattern options : String)

/-- The dynamic Go types a document's values can have, for type assertions. -/
inductive GoType where
  | float64 | string | document | arrayPtr | array | bool | time | nullType
  | int32 | int64 | objectID | regex
deriving DecidableEq

/-- The name Go's runtime prints for a dynamic type. -/
def GoType.name : GoType → String
  | .float64 => "float64"
  | .string => "string"
  | .document => "types.Document"
  | .arrayPtr => "*types.Array"
  | .array => "types.Array"
  | .bool => "bool"
  | .time => "time.Time"
  | .nullType => "types.NullType"
  | .int32 => "int32"
  | .int64 => "int64"
  | .objectID => "types.ObjectID"
  | .regex => "types.Regex"

namespace Value

/-- Documents hold arrays by pointer: no value has the dynamic type `types.Array`. -/
def goType : Value → GoType
  | .double _ => .float64
  | .string _ => .string
  | .document _ => .document
  | .array _ => .arrayPtr
  | .bool _ => .bool
  | .datetime _ => .time
  | .null => .nullType
  | .int32 _ => .int32
  | .int64 _ => .int64
  | .objectID _ => .objectID
  | .regex _ _ => .regex

def isString : Value → Bool
  | .string _ => true
  | _ => false

def isArray : Value → Bool
  | .array _ => true
  | _ => false

theorem goType_ne_array (v : Value) : v.goType ≠ .array := by
  cases v <;> simp [goType]

/-- IEEE-754 `==` on two float64 bit patterns: the two zeros are equal and NaN equals nothing. -/
def floatEq (x y : UInt64) : Bool :=
  let isNaN (b : UInt64) := (b >>> 52) &&& 0x7FF == 0x7FF && b &&& 0xFFFFFFFFFFFFF != 0
  (x <<< 1 == 0 && y <<< 1 == 0) || (x == y && !isNaN x)

mutual

/-- `reflect.DeepEqual` on two values. -/
def deepEqual : Value → Value → Bool
  | .double x, .double y => floatEq x y
  | .string a, .string b => a == b
  | .document ps, .document qs => pairsDeepEqual ps qs
  | .array as, .array bs => elemsDeepEqual as bs
  | .bool a, .bool b => a == b
  | .datetime a, .datetime b => a == b
  | .null, .null => true
  | .int32 a, .int32 b => a == b
  | .int64 a, .int64 b => a == b
  | .objectID a, .objectID b => a.bytes == b.bytes
  | .regex p o, .regex q r => p == q && o == r
  | _, _ => false

def pairsDeepEqual : List (String × Value) → List (String × Value) → Bool
  | [], [] => true
  | (k, v) :: ps, (l, w) :: qs => k == l && deepEqual v w && pairsDeepEqual ps qs
  | _, _ => false

def elemsDeepEqual : List Value → List Value → Bool
  | [], [] => true
  | v :: vs, w :: ws => deepEqual v w && elemsDeepEqual vs ws
  | _, _ => false

end

end Value

/-- Replace the value under `k` in place, or append the pair when `k` is new. -/
def setPair : List (String × Value) → String → Value → List (String × Value)
  | [], k, v => [(k, v)]
  | (k', w) :: ps, k, v => if k' = k then (k, v) :: ps else (k', w) :: setPair ps k v

def removePair (ps : List (String × Value)) (k : String) : List (String × Value) :=
  ps.filter (·.1 ≠ k)

theorem keys_setPair (ps : List (String × Value)) (k : String) (v : Value) :
    (setPair ps k v).map Prod.fst =
      if k ∈ ps.map Prod.fst then ps.map Prod.fst else ps.map Prod.fst ++ [k] := by
  induction ps with
  | nil => rfl
  | cons kw ps ih =>
    by_cases hk : kw.1 = k
    · simp [setPair, hk]
    · have hk' : k ≠ kw.1 := Ne.symm hk
      simp only [setPair, hk, if_false, List.map_cons, ih, List.mem_cons, hk', false_or]
      split_ifs <;> rfl

theorem nodup_setPair {ps : List (String × Value)} (k : String) (v : Value)
    (h : (ps.map Prod.fst).Nodup) : ((setPair ps k v).map Prod.fst).Nodup := by
  rw [keys_setPair]
  split_ifs with hk
  · exact h
  · exact h.append (List.nodup_singleton k) (List.disjoint_singleton.mpr hk)

theorem fst_ne_of_not_mem {key : String} {rest : List (String × Value)}
    (h : key ∉ rest.map Prod.fst) {kv : String × Value} (hm : kv ∈ rest) : kv.1 ≠ key :=
  fun he => h (he ▸ List.mem_map_of_mem Prod.fst hm)

theorem lookup_eq_none_iff_not_mem {ps : List (String × Value)} {k : String} :
    ps.lookup k = none ↔ k ∉ ps.map Prod.fst := by
  simp only [List.lookup_eq_none_iff, bne_iff_ne, List.mem_map, not_exists, not_and]
  exact ⟨fun h p hp he => h p hp he.symm, fun h p hp he => h p hp he.symm⟩

@[simp] theorem lookup_setPair_self (ps : List (String × Value)) (k : String) (v : Value) :
    (setPair ps k v).lookup k = some v := by
  induction ps with
  | nil => simp [setPair]
  | cons kw ps ih =>
    obtain ⟨k₀, w⟩ := kw
    by_cases hk : k₀ = k
    · simp [setPair, hk]
    · simp [setPair, hk, List.lookup_cons, beq_false_of_ne (Ne.symm hk), ih]

theorem lookup_setPair_of_ne (ps : List (String × Value)) {k k' : String} (v : Value)
    (h : k' ≠ k) : (setPair ps k v).lookup k' = ps.lookup k' := by
  induction ps with
  | nil => simp [setPair, List.lookup_cons, beq_false_of_ne h]
  | cons kw ps ih =>
    obtain ⟨k₀, w⟩ := kw
    by_cases hk : k₀ = k
    · subst hk
      simp [setPair, List.lookup_cons, beq_false_of_ne h]
    · simp [setPair, hk, List.lookup_cons, ih]

theorem setPair_of_not_mem {ps : List (String × Value)} {k : String} (v : Value)
    (h : k ∉ ps.map Prod.fst) : setPair ps k v = ps ++ [(k, v)] := by
  induction ps with
  | nil => rfl
  | cons kw ps ih =>
    simp only [List.map_cons, List.mem_cons, not_or] at h
    simp [setPair, Ne.symm h.1, ih h.2]

theorem filter_setPair_self (ps : List (String × Value)) (k : String) (v : Value) :
    (setPair ps k v).filter (·.1 != k) = ps.filter (·.1 != k) := by
  induction ps with
  | nil => simp [setPair]
  | cons kw ps ih =>
    by_cases hk : kw.1 = k
    · simp [setPair, hk, List.filter_cons]
    · simp [setPair, hk, List.filter_cons, ih]

theorem nodup_removePair {ps : List (String × Value)} (k : String)
    (h : (ps.map Prod.fst).Nodup) : ((removePair ps k).map Prod.fst).Nodup :=
  h.sublist ((List.filter_sublist _).map _)

/-- Modelled from the spec: `types.Document`, absent from src/, as ordered pairs whose keys
are unique, with the `Keys`, `Map`/`Get`, `Set` and `Remove` of the spec's value model. -/
structure Document where
  pairs : List (String × Value)
  nodup : (pairs.map Prod.fst).Nodup

namespace Document

def keys (d : Document) : List String := d.pairs.map Prod.fst

def get (d : Document) (k : String) : Option Value := d.pairs.lookup k

def set (d : Document) (k : String) (v : Value) : Document :=
  ⟨setPair d.pairs k v, nodup_setPair k v d.nodup⟩

def remove (d : Document) (k : String) : Document :=
  ⟨removePair d.pairs k, nodup_removePair k d.nodup⟩

theorem set_pairs_of_not_mem (d : Document) {k : String} (v : Value) (h : k ∉ d.keys) :
    (d.set k v).pairs = d.pairs ++ [(k, v)] :=
  setPair_of_not_mem v h

theorem keys_set_of_not_mem (d : Document) {k : String} (v : Value) (h : k ∉ d.keys) :
    (d.set k v).keys = d.keys ++ [k] := by
  simp [keys, set_pairs_of_not_mem d v h]

theorem get_of_mem (d : Document) {kv : String × Value} (h : kv ∈ d.pairs) :
    d.get kv.1 = some kv.2 := by
  obtain ⟨ps, hnd⟩ := d
  simp only [get]
  induction ps with
  | nil => cases h
  | cons hd rest ih =>
    obtain ⟨k, v⟩ := hd
    rw [List.map_cons, List.nodup_cons] at hnd
    rcases List.mem_cons.mp h with rfl | hm
    · simp [List.lookup_cons]
    · simp [List.lookup_cons, beq_false_of_ne (fst_ne_of_not_mem hnd.1 hm), ih hnd.2 hm]

def empty : Document := ⟨[], List.nodup_nil⟩

end Document

inductive ErrorCode where
  | badValue | regexOptions | notImplemented
deriving DecidableEq

/-- Errors as the handlers build them: a command error carries its code
(`common.NewErrorMessage`), `lazyerrors` adds context around an inner error. -/
inductive GoError where
  | command (code : ErrorCode) (msg : String)
  | lazy (msg : String)
  | wrap (ctx : String) (err : GoError)
deriving DecidableEq

/-- How a Go call can end without its results: an error it returns, or a panic. -/
inductive Fault where
  | error (e : GoError)
  | panic (msg : String)
deriving DecidableEq

def Fault.wrap (ctx : String) : Fault → Fault
  | .error e => .error (.wrap ctx e)
  | .panic m => .panic m

/-- The order in which one `for k, v := range d.Map()` visits a document's entries:
any permutation, chosen by the Go runtime. -/
structure MapOrder where
  order : List (String × Value) → List (String × Value)
  perm : ∀ ps, (order ps).Perm ps

end HanaCompat
