import HanaCompat.Types

namespace HanaCompat.Bson

/-- `Bool.ReadFrom` on the bytes left to read: the value, and the bytes after its one byte. -/
def readFrom : List UInt8 → Except GoError (Bool × List UInt8)
  | [] => .error (.wrap "bson.Bool.ReadFrom" (.lazy "EOF"))
  | v :: rest =>
    if v = 0 then .ok (false, rest)
    else if v = 1 then .ok (true, rest)
    else .error (.lazy "bson.Bool.ReadFrom: unexpected byte %#02x")

def marshalBinary (b : Bool) : List UInt8 := if b then [1] else [0]

/-- `ReadFrom` accepts exactly what `MarshalBinary` writes, whatever follows it, and gives the
value back: every first byte other than 0 and 1 is an error. -/
theorem readFrom_eq_ok {bytes rest : List UInt8} {b : Bool} :
    readFrom bytes = .ok (b, rest) ↔ bytes = marshalBinary b ++ rest := by
  rcases bytes with _ | ⟨v, bytes⟩
  · cases b <;> simp [readFrom, marshalBinary]
  · by_cases h0 : v = 0 <;> by_cases h1 : v = 1 <;> cases b <;>
      simp [readFrom, marshalBinary, h0, h1]

end HanaCompat.Bson
