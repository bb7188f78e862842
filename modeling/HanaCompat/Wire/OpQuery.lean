import Mathlib.Algebra.Group.Nat.Basic
import HanaCompat.Types

namespace HanaCompat.Wire

theorem Except.mapError_eq_ok {ε ε' α : Type} {x : Except ε α} {f : ε → ε'} {a : α} :
    x.mapError f = .ok a ↔ x = .ok a := by
  cases x <;> simp [Except.mapError]

theorem Except.bind_eq_ok {ε α β : Type} {x : Except ε α} {f : α → Except ε β} {b : β} :
    x.bind f = .ok b ↔ ∃ a, x = .ok a ∧ f a = .ok b := by
  cases x <;> simp [Except.bind]

def putUint32 (x : BitVec 32) : List UInt8 :=
  [UInt8.ofNat x.toNat, UInt8.ofNat (x.toNat / 2 ^ 8), UInt8.ofNat (x.toNat / 2 ^ 16),
    UInt8.ofNat (x.toNat / 2 ^ 24)]

def readUint32 : List UInt8 → Except GoError (BitVec 32 × List UInt8)
  | b₀ :: b₁ :: b₂ :: b₃ :: rest =>
    .ok (BitVec.ofNat 32 (b₀.toNat + 2 ^ 8 * b₁.toNat + 2 ^ 16 * b₂.toNat + 2 ^ 24 * b₃.toNat),
      rest)
  | [] => .error (.lazy "EOF")
  | _ => .error (.lazy "unexpected EOF")

theorem readUint32_putUint32 (x : BitVec 32) (rest : List UInt8) :
    readUint32 (putUint32 x ++ rest) = .ok (x, rest) := by
  have hx := x.isLt
  simp only [putUint32, List.cons_append, List.nil_append, readUint32, toNat_byte,
    Except.ok.injEq, Prod.mk.injEq, and_true]
  apply BitVec.eq_of_toNat_eq
  rw [BitVec.toNat_ofNat]
  omega

theorem putUint32_of_readUint32 {b rest : List UInt8} {x : BitVec 32}
    (h : readUint32 b = .ok (x, rest)) : b = putUint32 x ++ rest := by
  match b, h with
  | b₀ :: b₁ :: b₂ :: b₃ :: rest', h =>
    simp only [readUint32, Except.ok.injEq, Prod.mk.injEq] at h
    obtain ⟨rfl, rfl⟩ := h
    have h₀ := UInt8.toNat_lt_size b₀
    have h₁ := UInt8.toNat_lt_size b₁
    have h₂ := UInt8.toNat_lt_size b₂
    have h₃ := UInt8.toNat_lt_size b₃
    simp only [UInt8.size] at h₀ h₁ h₂ h₃
    simp only [putUint32, BitVec.toNat_ofNat, List.cons_append, List.nil_append, List.cons.injEq,
      and_true]
    refine ⟨?_, ?_, ?_, ?_⟩ <;> apply UInt8.toNat.inj <;> simp only [toNat_byte] <;> omega

/-- Modelled from the spec: `bson.CString.ReadFrom`, absent from src/, as `ReadBytes(0)`:
the bytes before the first NUL, which it consumes. -/
def readCString : List UInt8 → Except GoError (List UInt8 × List UInt8)
  | [] => .error (.wrap "bson.CString.ReadFrom" (.lazy "EOF"))
  | b :: bs =>
    if b = 0 then .ok ([], bs)
    else
      match readCString bs with
      | .ok (s, rest) => .ok (b :: s, rest)
      | .error e => .error e

/-- Modelled from the spec: `bson.CString.WriteTo`, absent from src/, as the bytes, then a
NUL. -/
def writeCString (s : List UInt8) : List UInt8 := s ++ [0]

theorem readCString_writeCString {s : List UInt8} (h : 0 ∉ s) (rest : List UInt8) :
    readCString (writeCString s ++ rest) = .ok (s, rest) := by
  induction s with
  | nil => simp [writeCString, readCString]
  | cons b s ih =>
    simp only [List.mem_cons, not_or] at h
    simp only [writeCString, List.cons_append, List.append_assoc, List.singleton_append,
      List.nil_append] at ih ⊢
    simp [readCString, Ne.symm h.1, ih h.2]

theorem writeCString_of_readCString : ∀ {b s rest : List UInt8},
    readCString b = .ok (s, rest) → 0 ∉ s ∧ b = writeCString s ++ rest
  | [], _, _, h => by simp [readCString] at h
  | c :: bs, s, rest, h => by
    by_cases hc : c = 0
    · simp only [readCString, hc, if_true, Except.ok.injEq, Prod.mk.injEq] at h
      obtain ⟨rfl, rfl⟩ := h
      simp [writeCString, hc]
    · simp only [readCString, hc, if_false] at h
      split at h
      · rename_i s' rest' hr
        simp only [Except.ok.injEq, Prod.mk.injEq] at h
        obtain ⟨rfl, rfl⟩ := h
        obtain ⟨hs, rfl⟩ := writeCString_of_readCString hr
        simp [writeCString, Ne.symm hc, hs]
      · cases h

/-- The `bson.Document` codec together with the conversions between `bson.Document` and
`Doc`, absent from src/: `read` takes one document off the front of the bytes. -/
structure DocumentCodec (Doc : Type) where
  read : List UInt8 → Except GoError (Doc × List UInt8)
  write : Doc → List UInt8

/-- Mutually inverse and self-delimiting: `read` gives back what `write` wrote, whatever
follows, and what `read` accepts is one document's encoding. -/
structure DocumentCodec.Lawful {Doc : Type} (c : DocumentCodec Doc) : Prop where
  read_write : ∀ d rest, c.read (c.write d ++ rest) = .ok (d, rest)
  write_read : ∀ b d rest, c.read b = .ok (d, rest) → b = c.write d ++ rest
  write_ne_nil : ∀ d, c.write d ≠ []

/-- `OpQuery`, over the type of its documents; a Go string is its bytes. -/
structure OpQuery (Doc : Type) where
  flags : BitVec 32
  fullCollectionName : List UInt8
  numberToSkip : BitVec 32
  numberToReturn : BitVec 32
  query : Doc
  returnFieldsSelector : Option Doc

section Codec

variable {Doc : Type} (c : DocumentCodec Doc)

/-- `readFrom` into the receiver `query`, with the bytes it leaves unread. The selector is
read only when a byte is left (`bufr.Peek(1)`); otherwise the receiver keeps its own. -/
def readFrom (query : OpQuery Doc) (b : List UInt8) : Except GoError (OpQuery Doc × List UInt8) :=
  ((readUint32 b).mapError (.wrap "wire.OpQuery.ReadFrom (binary.Read)")).bind fun (flags, b) =>
  (readCString b).bind fun (col, b) =>
  (readUint32 b).bind fun (numberToSkip, b) =>
  (readUint32 b).bind fun (numberToReturn, b) =>
  (c.read b).bind fun (q, b) =>
  if b ≠ [] then
    (c.read b).bind fun (r, b) => .ok (⟨flags, col, numberToSkip, numberToReturn, q, some r⟩, b)
  else .ok (⟨flags, col, numberToSkip, numberToReturn, q, query.returnFieldsSelector⟩, b)

def unmarshalBinary (query : OpQuery Doc) (b : List UInt8) : Except GoError (OpQuery Doc) :=
  match readFrom c query b with
  | .error e => .error (.wrap "wire.OpQuery.UnmarshalBinary" e)
  | .ok (query, rest) =>
    if rest = [] then .ok query else .error (.lazy "unexpected end of the OpQuery: %v")

def marshalBinary (query : OpQuery Doc) : List UInt8 :=
  putUint32 query.flags ++ writeCString query.fullCollectionName ++ putUint32 query.numberToSkip ++
    putUint32 query.numberToReturn ++ c.write query.query ++
    match query.returnFieldsSelector with
    | some r => c.write r
    | none => []

variable {c}

theorem unmarshalBinary_marshalBinary_eq (hc : c.Lawful) (q receiver : OpQuery Doc)
    (hname : 0 ∉ q.fullCollectionName) (hr : receiver.returnFieldsSelector = none) :
    unmarshalBinary c receiver (marshalBinary c q) = .ok q := by
  obtain ⟨flags, name, skip, ret, query, sel⟩ := q
  have hq := hc.read_write query
  cases sel with
  | none =>
    have hq₀ := hq []
    rw [List.append_nil] at hq₀
    simp [unmarshalBinary, readFrom, marshalBinary, readUint32_putUint32,
      readCString_writeCString hname, hq₀, hr, Except.bind, Except.mapError]
  | some d =>
    have hd := hc.read_write d []
    rw [List.append_nil] at hd
    simp [unmarshalBinary, readFrom, marshalBinary, readUint32_putUint32,
      readCString_writeCString hname, hq, hd, hc.write_ne_nil d, Except.bind, Except.mapError]

theorem marshalBinary_of_unmarshalBinary (hc : c.Lawful) {receiver q : OpQuery Doc}
    {b : List UInt8} (hr : receiver.returnFieldsSelector = none)
    (h : unmarshalBinary c receiver b = .ok q) : marshalBinary c q = b := by
  unfold unmarshalBinary at h
  split at h
  · cases h
  · rename_i q' rest hread
    split at h
    · subst rest
      cases h
      obtain ⟨⟨flags, b₁⟩, h₁, hread⟩ := Except.bind_eq_ok.mp hread
      obtain ⟨⟨col, b₂⟩, h₂, hread⟩ := Except.bind_eq_ok.mp hread
      obtain ⟨⟨skip, b₃⟩, h₃, hread⟩ := Except.bind_eq_ok.mp hread
      obtain ⟨⟨ret, b₄⟩, h₄, hread⟩ := Except.bind_eq_ok.mp hread
      obtain ⟨⟨query, b₅⟩, h₅, hread⟩ := Except.bind_eq_ok.mp hread
      rw [putUint32_of_readUint32 (Except.mapError_eq_ok.mp h₁),
        (writeCString_of_readCString h₂).2, putUint32_of_readUint32 h₃,
        putUint32_of_readUint32 h₄, hc.write_read _ _ _ h₅]
      dsimp only at hread
      split at hread
      · obtain ⟨⟨r, b₆⟩, h₆, hread⟩ := Except.bind_eq_ok.mp hread
        simp only [Except.ok.injEq, Prod.mk.injEq] at hread
        obtain ⟨rfl, rfl⟩ := hread
        simp [marshalBinary, hc.write_read _ _ _ h₆]
      · rename_i hb
        simp only [Except.ok.injEq, Prod.mk.injEq] at hread
        obtain ⟨rfl, rfl⟩ := hread
        simp only [ne_eq, Decidable.not_not] at hb
        simp [marshalBinary, hr, hb]
    · cases h

/-- Both round trips of the OpQuery codec, decoding into a receiver without a selector. -/
theorem opQuery_roundTrip (hc : c.Lawful) :
    (∀ q receiver : OpQuery Doc, 0 ∉ q.fullCollectionName → receiver.returnFieldsSelector = none →
      unmarshalBinary c receiver (marshalBinary c q) = .ok q) ∧
    ∀ (receiver q : OpQuery Doc) (b : List UInt8), receiver.returnFieldsSelector = none →
      unmarshalBinary c receiver b = .ok q → marshalBinary c q = b :=
  ⟨fun q receiver hname hr => unmarshalBinary_marshalBinary_eq hc q receiver hname hr,
    fun _ _ _ hr h => marshalBinary_of_unmarshalBinary hc hr h⟩

/-- Decoding into a receiver that already holds a selector: a query encoded without one comes
back with the receiver's stale selector, since `readFrom` only sets the field when a byte is
left. -/
theorem unmarshalBinary_marshalBinary (hc : c.Lawful) (q receiver : OpQuery Doc)
    (hname : 0 ∉ q.fullCollectionName) :
    unmarshalBinary c receiver (marshalBinary c q) =
      .ok { q with returnFieldsSelector := q.returnFieldsSelector.or receiver.returnFieldsSelector } := by
  obtain ⟨flags, name, skip, ret, query, sel⟩ := q
  have hq := hc.read_write query
  cases sel with
  | none =>
    have hq₀ := hq []
    rw [List.append_nil] at hq₀
    simp [unmarshalBinary, readFrom, marshalBinary, readUint32_putUint32,
      readCString_writeCString hname, hq₀, Except.bind, Except.mapError]
  | some d =>
    have hd := hc.read_write d []
    rw [List.append_nil] at hd
    simp [unmarshalBinary, readFrom, marshalBinary, readUint32_putUint32,
      readCString_writeCString hname, hq, hd, hc.write_ne_nil d, Except.bind, Except.mapError]

/-- Bytes after the selector are never read: decoding fails on them, whatever the receiver. -/
theorem unmarshalBinary_trailing (hc : c.Lawful) (q receiver : OpQuery Doc)
    (hname : 0 ∉ q.fullCollectionName) {r : Doc} (hsel : q.returnFieldsSelector = some r)
    {extra : List UInt8} (hextra : extra ≠ []) :
    unmarshalBinary c receiver (marshalBinary c q ++ extra) =
      .error (.lazy "unexpected end of the OpQuery: %v") := by
  obtain ⟨flags, name, skip, ret, query, sel⟩ := q
  subst hsel
  simp [unmarshalBinary, readFrom, marshalBinary, readUint32_putUint32,
    readCString_writeCString hname, hc.read_write, hc.write_ne_nil, hextra, Except.bind,
    Except.mapError]

end Codec

/-- BSON's codec for a single document, the empty one: five bytes, its length and the
terminating NUL. -/
def emptyDocumentCodec : DocumentCodec Unit where
  read
    | 5 :: 0 :: 0 :: 0 :: 0 :: rest => .ok ((), rest)
    | _ => .error (.lazy "bson.Document.ReadFrom: not the empty document")
  write _ := [5, 0, 0, 0, 0]

theorem emptyDocumentCodec_lawful : emptyDocumentCodec.Lawful where
  read_write _ _ := rfl
  write_read b d rest h := by
    simp only [emptyDocumentCodec] at h
    split at h
    · simp only [Except.ok.injEq, Prod.mk.injEq] at h
      obtain ⟨-, rfl⟩ := h
      rfl
    · cases h
  write_ne_nil _ := List.cons_ne_nil _ _

theorem opQuery_roundTrip_sample :
    emptyDocumentCodec.Lawful ∧
      unmarshalBinary emptyDocumentCodec ⟨0, [], 0, 0, (), none⟩
          (marshalBinary emptyDocumentCodec ⟨0, [0x61], 0, 1, (), some ()⟩) =
        .ok ⟨0, [0x61], 0, 1, (), some ()⟩ ∧
      marshalBinary emptyDocumentCodec ⟨0, [0x61], 0, 1, (), some ()⟩ =
        [0, 0, 0, 0, 0x61, 0, 0, 0, 0, 0, 1, 0, 0, 0, 5, 0, 0, 0, 0, 5, 0, 0, 0, 0] :=
  ⟨emptyDocumentCodec_lawful,
    (opQuery_roundTrip emptyDocumentCodec_lawful).1 _ _ (by decide) rfl,
    (opQuery_roundTrip emptyDocumentCodec_lawful).2 ⟨0, [], 0, 0, (), none⟩ _ _ rfl rfl⟩

theorem unmarshalBinary_marshalBinary_stale :
    emptyDocumentCodec.Lawful ∧ (0 : UInt8) ∉ [0x61] ∧
      unmarshalBinary emptyDocumentCodec ⟨0, [], 0, 0, (), some ()⟩
          (marshalBinary emptyDocumentCodec ⟨0, [0x61], 0, 1, (), none⟩) =
        .ok ⟨0, [0x61], 0, 1, (), some ()⟩ :=
  ⟨emptyDocumentCodec_lawful, by decide,
    unmarshalBinary_marshalBinary emptyDocumentCodec_lawful ⟨0, [0x61], 0, 1, (), none⟩
      ⟨0, [], 0, 0, (), some ()⟩ (by decide)⟩

theorem unmarshalBinary_trailing_byte :
    emptyDocumentCodec.Lawful ∧ (0 : UInt8) ∉ [0x61] ∧
      unmarshalBinary emptyDocumentCodec ⟨0, [], 0, 0, (), none⟩
          (marshalBinary emptyDocumentCodec ⟨0, [0x61], 0, 1, (), some ()⟩ ++ [0]) =
        .error (.lazy "unexpected end of the OpQuery: %v") :=
  ⟨emptyDocumentCodec_lawful, by decide,
    unmarshalBinary_trailing emptyDocumentCodec_lawful ⟨0, [0x61], 0, 1, (), some ()⟩
      ⟨0, [], 0, 0, (), none⟩ (by decide) rfl (List.cons_ne_nil _ _)⟩

end HanaCompat.Wire
