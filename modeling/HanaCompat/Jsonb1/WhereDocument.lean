import HanaCompat.Types

namespace HanaCompat.Jsonb1

inductive FmtArg where
  | string (s : String)
  | int32 (v : BitVec 32)
  | int64 (v : BitVec 64)
deriving DecidableEq

/-- The type switch of `whereDocument`: the verb a value adds to the format text, and its
operands. An `int64` adds an operand but no verb. -/
def valueFormat (marshalJSONHANA : ObjectID → String) : Option Value → String × List FmtArg
  | some (.string s) => ("'%s'", [.string s])
  | some (.int64 v) => ("", [.int64 v])
  | some (.int32 v) => ("%d", [.int32 v])
  | some (.objectID id) => ("%s", [.string (marshalJSONHANA id)])
  | _ => ("", [])

/-- The comma written before the key at position `count` of a document of `size` keys. -/
def separator (size count : Nat) : String := if count ≠ 0 ∧ size - 1 = count then "," else ""

@[simp] theorem separator_zero (size : Nat) : separator size 0 = "" := rfl

theorem separator_of_last {size count : Nat} (h0 : count ≠ 0) (h : size - 1 = count) :
    separator size count = "," := if_pos ⟨h0, h⟩

theorem separator_of_not_last {size count : Nat} (h : size - 1 ≠ count) : separator size count = "" :=
  if_neg fun h' => h h'.2

structure DocState where
  sql : String
  sqlKeys : String
  args : List FmtArg
  count : Nat

def whereDocumentStep (marshalJSONHANA : ObjectID → String) (document : Document) (size : Nat)
    (st : DocState) (key : String) : DocState :=
  let comma := separator size st.count
  let value := valueFormat marshalJSONHANA (document.get key)
  { sql := st.sql ++ comma ++ "\"" ++ key ++ "\":" ++ value.1
    sqlKeys := st.sqlKeys ++ comma ++ "'" ++ key ++ "'"
    args := st.args ++ value.2
    count := st.count + 1 }

/-- `whereDocument`: the document as an object literal, a `keys` array recording the key
order before the members. `fmt.Sprintf` and `bson.ObjectID.MarshalJSONHANA`, absent from
src/, are parameters. -/
def whereDocument (order : MapOrder) (sprintf : String → List FmtArg → String)
    (marshalJSONHANA : ObjectID → String) (document : Document) : String :=
  let st := ((order.order document.pairs).map Prod.fst).foldl
    (whereDocumentStep marshalJSONHANA document document.pairs.length) ⟨"", "\x7b\"keys\": [", [], 0⟩
  st.sqlKeys ++ "]," ++ (sprintf st.sql st.args ++ "\x7d")

/-- The text the loop writes for `keys` from position `count` on: the text `item` of each
key behind its separator. -/
def itemsFrom (size : Nat) (item : String → String) : Nat → List String → String
  | _, [] => ""
  | count, key :: keys => separator size count ++ item key ++ itemsFrom size item (count + 1) keys

def memberFormat (marshalJSONHANA : ObjectID → String) (document : Document) (key : String) :
    String :=
  "\"" ++ key ++ "\":" ++ (valueFormat marshalJSONHANA (document.get key)).1

theorem foldl_whereDocumentStep (marshalJSONHANA : ObjectID → String) (document : Document)
    (size : Nat) : ∀ (keys : List String) (st : DocState),
      keys.foldl (whereDocumentStep marshalJSONHANA document size) st =
        { sql := st.sql ++ itemsFrom size (memberFormat marshalJSONHANA document) st.count keys
          sqlKeys := st.sqlKeys ++ itemsFrom size (fun key => "'" ++ key ++ "'") st.count keys
          args := st.args ++ keys.flatMap fun key => (valueFormat marshalJSONHANA (document.get key)).2
          count := st.count + keys.length }
  | [], ⟨_, _, _, _⟩ => by simp [itemsFrom]
  | key :: keys, st => by
    rw [List.foldl_cons, foldl_whereDocumentStep _ _ _ keys]
    simp only [whereDocumentStep, itemsFrom, memberFormat, String.append_assoc, List.append_assoc,
      List.flatMap_cons, List.length_cons, Nat.add_assoc, Nat.add_comm 1]

/-- `whereDocument` in closed form, for every document and every order of the range: the
quoted keys and the members, each in range order behind its `separator`, and the operands
of the members' verbs. -/
theorem whereDocument_eq (order : MapOrder) (sprintf : String → List FmtArg → String)
    (marshalJSONHANA : ObjectID → String) (document : Document) :
    whereDocument order sprintf marshalJSONHANA document =
      "\x7b\"keys\": [" ++
        itemsFrom document.pairs.length (fun key => "'" ++ key ++ "'") 0
          ((order.order document.pairs).map Prod.fst) ++ "]," ++
        (sprintf (itemsFrom document.pairs.length (memberFormat marshalJSONHANA document) 0
            ((order.order document.pairs).map Prod.fst))
          (((order.order document.pairs).map Prod.fst).flatMap fun key =>
            (valueFormat marshalJSONHANA (document.get key)).2) ++ "\x7d") := by
  rw [whereDocument, foldl_whereDocumentStep]
  rfl

def commaList : List String → String
  | [] => ""
  | [a] => a
  | a :: b :: as => a ++ "," ++ commaList (b :: as)

theorem length_itemsFrom_succ (item : String → String) :
    ∀ (keys : List String) (count size : Nat), size = count + 1 + keys.length → keys ≠ [] →
      (itemsFrom size item (count + 1) keys).length + keys.length =
        (commaList (keys.map item)).length + 2
  | [key], count, size, hs, _ => by
    rw [itemsFrom, separator_of_last count.succ_ne_zero (by simp [hs])]
    simp only [itemsFrom, commaList, List.map_cons, List.map_nil, String.length_append,
      List.length_singleton, String.length_empty]
    have hc : ",".length = 1 := rfl
    omega
  | key :: key' :: keys, count, size, hs, _ => by
    simp only [List.length_cons] at hs
    have h := length_itemsFrom_succ item (key' :: keys) (count + 1) size (by simp [hs]; omega) nofun
    rw [itemsFrom, separator_of_not_last (by omega), List.map_cons, List.map_cons, commaList]
    simp only [List.map_cons, String.length_append, String.length_empty, List.length_cons] at h ⊢
    have hc : ",".length = 1 := rfl
    omega

/-- The loop's list is the comma-separated one exactly when the document has at most two
keys: from three keys on it writes a single comma, before the last key. -/
theorem itemsFrom_eq_commaList_iff (item : String → String) (keys : List String) :
    itemsFrom keys.length item 0 keys = commaList (keys.map item) ↔ keys.length ≤ 2 := by
  match keys with
  | [] => simp [itemsFrom, commaList]
  | [a] => simp [itemsFrom, commaList]
  | [a, b] => simp [itemsFrom, commaList, separator, String.append_assoc]
  | a :: b :: c :: keys =>
    simp only [List.length_cons, show ¬keys.length + 1 + 1 + 1 ≤ 2 by omega, iff_false]
    intro h
    have ht := length_itemsFrom_succ item (b :: c :: keys) 0 (keys.length + 1 + 1 + 1)
      (by simp; omega) nofun
    have hl := congrArg String.length h
    rw [itemsFrom, separator_zero, List.map_cons, List.map_cons, commaList] at hl
    simp only [List.map_cons, String.length_append, String.length_empty, List.length_cons] at hl ht
    have hc : ",".length = 1 := rfl
    omega

/-- `{a: "a", b: "b", c: "c"}`, for any `fmt.Sprintf` and `MarshalJSONHANA`. In every order
of the range the keys array and the members have a comma only before the last key, so the
first two run together; and under an order that reverses the document the keys come out
reversed, not in the document's order. -/
theorem whereDocument_three_keys (sprintf : String → List FmtArg → String)
    (marshalJSONHANA : ObjectID → String) :
    (∀ order : MapOrder, ∃ k₀ k₁ k₂, [k₀, k₁, k₂].Perm ["a", "b", "c"] ∧
      whereDocument order sprintf marshalJSONHANA
          ⟨[("a", .string "a"), ("b", .string "b"), ("c", .string "c")], by decide⟩ =
        "\x7b\"keys\": ['" ++ k₀ ++ "''" ++ k₁ ++ "','" ++ k₂ ++ "']," ++
          (sprintf ("\"" ++ k₀ ++ "\":'%s'\"" ++ k₁ ++ "\":'%s',\"" ++ k₂ ++ "\":'%s'")
            [.string k₀, .string k₁, .string k₂] ++ "\x7d")) ∧
      whereDocument ⟨List.reverse, List.reverse_perm⟩ sprintf marshalJSONHANA
          ⟨[("a", .string "a"), ("b", .string "b"), ("c", .string "c")], by decide⟩ =
        "\x7b\"keys\": ['c''b','a']," ++
          (sprintf "\"c\":'%s'\"b\":'%s',\"a\":'%s'" [.string "c", .string "b", .string "a"] ++ "\x7d") := by
  refine ⟨fun order => ?_, rfl⟩
  obtain ⟨keys, hkeys⟩ : ∃ keys, (order.order
      [("a", .string "a"), ("b", .string "b"), ("c", .string "c")]).map Prod.fst = keys := ⟨_, rfl⟩
  have hp : keys.Perm ["a", "b", "c"] := hkeys ▸ (order.perm _).map Prod.fst
  obtain ⟨k₀, k₁, k₂, rfl⟩ := List.length_eq_three.1 hp.length_eq
  have hget : ∀ k ∈ [k₀, k₁, k₂], Document.get ⟨[("a", .string "a"), ("b", .string "b"),
      ("c", .string "c")], by decide⟩ k = some (.string k) := fun k hk => by
    rcases (by simpa using hp.subset hk : k = "a" ∨ k = "b" ∨ k = "c") with rfl | rfl | rfl <;> rfl
  refine ⟨k₀, k₁, k₂, hp, ?_⟩
  rw [whereDocument_eq, hkeys]
  simp only [itemsFrom, separator, memberFormat, valueFormat, hget _ (List.mem_cons_self _ _),
    hget _ (.tail _ (List.mem_cons_self _ _)), hget _ (.tail _ (.tail _ (List.mem_cons_self _ _))),
    List.flatMap_cons, List.flatMap_nil, String.append_assoc]
  rfl

/-- The `%` characters of a format; in the format `whereDocument` builds from keys without
`%`, each starts one verb. -/
def verbCount (format : String) : Nat := format.data.count '%'

theorem verbCount_append (s t : String) : verbCount (s ++ t) = verbCount s + verbCount t := by
  simp [verbCount]

def isInt64 : Option Value → Bool
  | some (.int64 _) => true
  | _ => false

theorem valueFormat_operands (marshalJSONHANA : ObjectID → String) :
    ∀ v : Option Value, (valueFormat marshalJSONHANA v).2.length =
      verbCount (valueFormat marshalJSONHANA v).1 + if isInt64 v then 1 else 0
  | none => rfl
  | some v => by cases v <;> rfl

theorem verbCount_separator (size count : Nat) : verbCount (separator size count) = 0 := by
  unfold separator
  split <;> rfl

theorem itemsFrom_operands (marshalJSONHANA : ObjectID → String) (document : Document)
    (size : Nat) : ∀ (keys : List String) (count : Nat), (∀ k ∈ keys, verbCount k = 0) →
      (keys.flatMap fun key => (valueFormat marshalJSONHANA (document.get key)).2).length =
        verbCount (itemsFrom size (memberFormat marshalJSONHANA document) count keys) +
          (keys.filter fun key => isInt64 (document.get key)).length
  | [], _, _ => rfl
  | key :: keys, count, hkeys => by
    have ih := itemsFrom_operands marshalJSONHANA document size keys (count + 1)
      fun k hk => hkeys k (.tail _ hk)
    have hv := valueFormat_operands marshalJSONHANA (document.get key)
    have hk : verbCount key = 0 := hkeys key (.head _)
    rw [List.flatMap_cons, List.length_append, itemsFrom, memberFormat, List.filter_cons, ih, hv]
    simp only [verbCount_append, verbCount_separator, hk]
    have hq : verbCount "\"" = 0 := rfl
    have hc : verbCount "\":" = 0 := rfl
    split <;> simp only [hq, hc, List.length_cons] <;> omega

theorem filter_isInt64_length (order : MapOrder) (document : Document) :
    (((order.order document.pairs).map Prod.fst).filter fun key => isInt64 (document.get key)).length =
      (document.pairs.filter fun kv => isInt64 (some kv.2)).length := by
  rw [List.filter_map, List.length_map]
  refine ((order.perm _).filter _).length_eq.trans (congrArg List.length (List.filter_congr ?_))
  intro kv hkv
  simp only [Function.comp, Document.get_of_mem document hkv]

/-- Whatever `fmt.Sprintf` does, `whereDocument` calls it once, on a format and operands of
its own: for a document whose keys hold no `%`, one operand more than the format has verbs
for each `int64` member, which has an operand and no verb, and as many as it has verbs
otherwise. -/
theorem whereDocument_operands (order : MapOrder) (marshalJSONHANA : ObjectID → String)
    (document : Document) (hkeys : ∀ k ∈ document.keys, verbCount k = 0) :
    ∃ pre format args, (∀ sprintf : String → List FmtArg → String,
        whereDocument order sprintf marshalJSONHANA document = pre ++ (sprintf format args ++ "\x7d")) ∧
      args.length = verbCount format + (document.pairs.filter fun kv => isInt64 (some kv.2)).length := by
  refine ⟨_, _, _, fun sprintf => whereDocument_eq order sprintf marshalJSONHANA document, ?_⟩
  rw [itemsFrom_operands _ _ _ _ _ fun k hk => hkeys k ?_, filter_isInt64_length]
  obtain ⟨kv, hkv, rfl⟩ := List.mem_map.mp hk
  exact List.mem_map_of_mem _ ((order.perm _).subset hkv)

theorem whereDocument_operands_int64 :
    (∀ k ∈ ["a", "n"], verbCount k = 0) ∧ ∃ pre format args,
      (∀ sprintf : String → List FmtArg → String,
        whereDocument ⟨fun ps => ps, .refl⟩ sprintf (fun _ => "")
            ⟨[("a", .string "x"), ("n", .int64 5)], by decide⟩ = pre ++ (sprintf format args ++ "\x7d")) ∧
      args.length = verbCount format +
        ([("a", Value.string "x"), ("n", .int64 5)].filter fun kv => isInt64 (some kv.2)).length :=
  ⟨by decide, whereDocument_operands _ _ ⟨[("a", .string "x"), ("n", .int64 5)], by decide⟩ (by decide)⟩

end HanaCompat.Jsonb1
