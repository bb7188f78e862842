import HanaCompat.Jsonb1.Meaning

namespace HanaCompat

theorem MapOrder.order_singleton (o : MapOrder) (kv : String × Value) : o.order [kv] = [kv] :=
  List.perm_singleton.mp (o.perm [kv])

theorem MapOrder.nodup_keys (o : MapOrder) {ps : List (String × Value)}
    (h : (ps.map Prod.fst).Nodup) : ((o.order ps).map Prod.fst).Nodup :=
  ((o.perm ps).map Prod.fst).nodup_iff.mpr h

end HanaCompat

namespace HanaCompat.Jsonb1

def filterLoop : List (String × Value) → Document → Bool → Document × Bool
  | [], doc, idFilter => (doc, idFilter)
  | (key, value) :: rest, doc, idFilter =>
    if hasPrefix key "$" then filterLoop rest doc idFilter
    else if value.goType = .document then filterLoop rest doc idFilter
    else if value.goType = .array then filterLoop rest doc idFilter
    else filterLoop rest (doc.set key value) (idFilter || key == "_id")

/-- `filterUpsert`: the filter's plain pairs, seeded into a new document. `doc.Set` cannot
fail on a value of the closed type set, so neither can this. -/
def filterUpsert (order : MapOrder) (filter : Document) : Document × Bool :=
  filterLoop (order.order filter.pairs) Document.empty false

def updateLoop : List (String × Value) → Document → Bool → Except GoError (Document × Bool)
  | [], d, idUpdate => .ok (d, idUpdate)
  | (key, value) :: rest, d, idUpdate =>
    if hasPrefix key "$" then updateLoop rest d idUpdate
    else
      match d.get key with
      | some dValue =>
        if Value.deepEqual value dValue then updateLoop rest d idUpdate
        else .error (.lazy ("Key-value pair %s:%s from query document is not equal to same " ++
          "key-value pair %s:%s in update document"))
      | none => updateLoop rest (d.set key value) (idUpdate || key == "_id")

/-- `updateUpsert`: `$set` applied to the seed document. The source's `idFilter` argument
is not read. -/
def updateUpsert (order : MapOrder) (updateDoc : Document) (d : Document) :
    Except GoError (Document × Bool) :=
  match updateDoc.get "$set" with
  | some (.document setDoc) => updateLoop (order.order setDoc) d false
  | _ => .ok (d, false)

/-- `Upsert`, with the orders of its two map ranges and the ObjectID that
`generateObjectID` would return. `none` is the nil `*types.Document`. The error of
`updateUpsert` is not read: its nil document goes on, and `doc.Set` on it panics. -/
def upsert (filterOrder setOrder : MapOrder) (newID : ObjectID) (updateDoc filter : Document)
    (replace : Bool) : Except Fault (Option Document) :=
  let (doc, idFilter, idUpdate) : Option Document × Bool × Bool :=
    if replace then (some updateDoc, false, false)
    else
      let (d, idFilter) := filterUpsert filterOrder filter
      match updateUpsert setOrder updateDoc d with
      | .ok (doc, idUpdate) => (some doc, idFilter, idUpdate)
      | .error _ => (none, idFilter, false)
  if !idFilter && !idUpdate then
    match doc with
    | some doc => .ok (some (doc.set "_id" (.objectID newID)))
    | none => .error (.panic "runtime error: invalid memory address or nil pointer dereference")
  else .ok doc

/-- The filter pairs that seed an upsert: a key not starting with `$` and a value whose
dynamic type is not `types.Document`. -/
def seedable (kv : String × Value) : Bool :=
  !hasPrefix kv.1 "$" && kv.2.goType != .document

theorem filterLoop_eq : ∀ (ps : List (String × Value)) (doc : Document) (idFilter : Bool),
    (ps.map Prod.fst).Nodup → (∀ kv ∈ ps, kv.1 ∉ doc.keys) →
      (filterLoop ps doc idFilter).1.pairs = doc.pairs ++ ps.filter seedable ∧
        (filterLoop ps doc idFilter).2 = (idFilter || (ps.filter seedable).any (·.1 == "_id"))
  | [], doc, idFilter, _, _ => by simp [filterLoop]
  | (key, value) :: rest, doc, idFilter, hnd, hfresh => by
    rw [List.map_cons, List.nodup_cons] at hnd
    have hrest : ∀ kv ∈ rest, kv.1 ∉ doc.keys := fun kv hm => hfresh kv (.tail _ hm)
    by_cases hs : seedable (key, value)
    · simp only [seedable, Bool.and_eq_true, Bool.not_eq_true', bne_iff_ne, ne_eq] at hs
      have hkey : key ∉ doc.keys := hfresh _ (.head _)
      have hnext : ∀ kv ∈ rest, kv.1 ∉ (doc.set key value).keys := by
        intro kv hm hk
        rw [Document.keys_set_of_not_mem doc value hkey, List.mem_append, List.mem_singleton] at hk
        rcases hk with hk | hk
        · exact hrest kv hm hk
        · exact fst_ne_of_not_mem hnd.1 hm hk
      obtain ⟨h₁, h₂⟩ := filterLoop_eq rest (doc.set key value) (idFilter || key == "_id") hnd.2 hnext
      have hpos : seedable (key, value) = true := by simp [seedable, hs.1, hs.2]
      simp only [filterLoop, hs.1, Value.goType_ne_array, hs.2, if_false, Bool.false_eq_true,
        List.filter_cons_of_pos hpos]
      refine ⟨?_, ?_⟩
      · rw [h₁, Document.set_pairs_of_not_mem doc value hkey]
        simp
      · rw [h₂]
        simp [Bool.or_assoc]
    · obtain ⟨h₁, h₂⟩ := filterLoop_eq rest doc idFilter hnd.2 hrest
      have hskip : filterLoop ((key, value) :: rest) doc idFilter = filterLoop rest doc idFilter := by
        simp only [seedable, Bool.and_eq_true, Bool.not_eq_true', bne_iff_ne, ne_eq, not_and,
          Decidable.not_not] at hs
        by_cases hp : hasPrefix key "$" = true
        · simp [filterLoop, hp]
        · simp [filterLoop, hp, hs (by simpa using hp)]
      rw [hskip, List.filter_cons_of_neg hs]
      exact ⟨h₁, h₂⟩

theorem mem_keys_of_get {d : Document} {k : String} {v : Value} (h : d.get k = some v) :
    k ∈ d.keys := by
  by_contra hn
  rw [Document.get, lookup_eq_none_iff_not_mem.mpr hn] at h
  cases h

theorem updateLoop_ok : ∀ (ps : List (String × Value)) (d D : Document) (idUpdate idUpdate' : Bool),
    (ps.map Prod.fst).Nodup → updateLoop ps d idUpdate = .ok (D, idUpdate') →
      D.pairs = d.pairs ++ ps.filter (fun kv => !hasPrefix kv.1 "$" && kv.1 ∉ d.keys) ∧
        idUpdate' = (idUpdate ||
          (ps.filter fun kv => !hasPrefix kv.1 "$" && kv.1 ∉ d.keys).any (·.1 == "_id"))
  | [], d, D, _, _, _, h => by
    simp only [updateLoop, Except.ok.injEq, Prod.mk.injEq] at h
    obtain ⟨rfl, rfl⟩ := h
    simp
  | (key, value) :: rest, d, D, idUpdate, idUpdate', hnd, h => by
    rw [List.map_cons, List.nodup_cons] at hnd
    by_cases hp : hasPrefix key "$" = true
    · simp only [updateLoop, hp, if_true] at h
      simpa [List.filter_cons, hp] using updateLoop_ok rest d D _ _ hnd.2 h
    · simp only [updateLoop, hp, if_false, Bool.false_eq_true] at h
      cases hg : d.get key with
      | some dv =>
        rw [hg] at h
        dsimp only at h
        split at h
        · simpa [List.filter_cons, mem_keys_of_get hg] using updateLoop_ok rest d D _ _ hnd.2 h
        · cases h
      | none =>
        rw [hg] at h
        dsimp only at h
        have hk : key ∉ d.keys := lookup_eq_none_iff_not_mem.mp hg
        have hsame : (rest.filter fun kv => !hasPrefix kv.1 "$" && kv.1 ∉ (d.set key value).keys) =
            rest.filter fun kv => !hasPrefix kv.1 "$" && kv.1 ∉ d.keys := by
          refine List.filter_congr fun kv hm => ?_
          simp [Document.keys_set_of_not_mem d value hk, fst_ne_of_not_mem hnd.1 hm]
        obtain ⟨h₁, h₂⟩ := updateLoop_ok rest _ D _ _ hnd.2 h
        rw [hsame, Document.set_pairs_of_not_mem d value hk] at h₁
        rw [hsame] at h₂
        constructor
        · simp [h₁, List.filter_cons, hp, hk]
        · simp [h₂, List.filter_cons, hp, hk, Bool.or_assoc]

theorem updateLoop_conflict {key : String} {value dValue : Value}
    (hp : hasPrefix key "$" = false) (hne : Value.deepEqual value dValue = false) :
    ∀ (ps : List (String × Value)) (d : Document) (idUpdate : Bool),
      (key, value) ∈ ps → d.get key = some dValue → ∃ e, updateLoop ps d idUpdate = .error e
  | [], _, _, hm, _ => absurd hm (List.not_mem_nil _)
  | (k, v) :: rest, d, idUpdate, hm, hd => by
    rcases List.mem_cons.mp hm with he | hm
    · obtain ⟨rfl, rfl⟩ := Prod.mk.inj he
      simp [updateLoop, hp, hd, hne]
    · have ih := updateLoop_conflict hp hne rest
      by_cases hk : hasPrefix k "$" = true
      · simpa [updateLoop, hk] using ih d idUpdate hm hd
      · simp only [updateLoop, hk, if_false, Bool.false_eq_true]
        cases hg : d.get k with
        | some w =>
          dsimp only
          split
          · exact ih d idUpdate hm hd
          · exact ⟨_, rfl⟩
        | none =>
          have hkey : key ≠ k := by
            rintro rfl
            rw [hd] at hg
            cases hg
          exact ih _ _ hm (by rw [Document.get, Document.set, lookup_setPair_of_ne _ _ hkey]; exact hd)

/-- The seed the spec's upsert rules describe: the filter's pairs whose key does not start
with `$` and whose value is not a document, in the order the map is visited. -/
def upsertSeed (order : MapOrder) (filter : Document) : List (String × Value) :=
  (order.order filter.pairs).filter seedable

/-- The `$set` pairs, in the order that map is visited, whose key does not start with `$`
and is not already a key of the seed. -/
def upsertAdded (order : MapOrder) (updateDoc : Document) (seed : List (String × Value)) :
    List (String × Value) :=
  match updateDoc.get "$set" with
  | some (.document setDoc) =>
    (order.order setDoc).filter fun kv => !hasPrefix kv.1 "$" && kv.1 ∉ seed.map Prod.fst
  | _ => []

theorem filterUpsert_pairs (order : MapOrder) (filter : Document) :
    (filterUpsert order filter).1.pairs = upsertSeed order filter ∧
      (filterUpsert order filter).2 = (upsertSeed order filter).any (·.1 == "_id") := by
  have h := filterLoop_eq (order.order filter.pairs) Document.empty false
    (order.nodup_keys filter.nodup) (fun _ _ h => List.not_mem_nil _ h)
  rw [Bool.false_or] at h
  exact h

theorem upsert_ok_of_merge {oF oS : MapOrder} {newID : ObjectID} {U F D : Document}
    (h : upsert oF oS newID U F false = .ok (some D)) :
    ∃ D' idUpdate, updateUpsert oS U (filterUpsert oF F).1 = .ok (D', idUpdate) ∧
      (D = D' ∨ D = D'.set "_id" (.objectID newID)) := by
  rcases hu : updateUpsert oS U (filterUpsert oF F).1 with e | ⟨D', idUpdate⟩ <;>
    simp only [upsert, hu, Bool.false_eq_true, if_false] at h
  · split at h <;> cases h
  · refine ⟨D', idUpdate, rfl, ?_⟩
    split at h <;> simp only [Except.ok.injEq, Option.some.injEq] at h
    · exact .inr h.symm
    · exact .inl h.symm

/-- After a merged upsert, the keys other than `_id` are the seed's, then the `$set` keys
the seed lacks, each with its value, in the orders the two maps were visited. -/
theorem upsert_merge_pairs (oF oS : MapOrder) (newID : ObjectID) (U F D : Document)
    (hset : ∀ setDoc, U.get "$set" = some (.document setDoc) → (setDoc.map Prod.fst).Nodup)
    (h : upsert oF oS newID U F false = .ok (some D)) :
    D.pairs.filter (·.1 != "_id") =
      (upsertSeed oF F ++ upsertAdded oS U (upsertSeed oF F)).filter (·.1 != "_id") := by
  obtain ⟨D', idUpdate, hu, hD⟩ := upsert_ok_of_merge h
  have hseed := (filterUpsert_pairs oF F).1
  have hD' : D'.pairs = upsertSeed oF F ++ upsertAdded oS U (upsertSeed oF F) := by
    unfold updateUpsert at hu
    unfold upsertAdded
    split at hu
    · rename_i setDoc hs
      rw [(updateLoop_ok _ _ _ _ _ (oS.nodup_keys (hset setDoc hs)) hu).1, Document.keys, hseed]
    · simp only [Except.ok.injEq, Prod.mk.injEq] at hu
      rw [← hu.1, hseed, List.append_nil]
  rcases hD with rfl | rfl
  · rw [hD']
  · rw [Document.set, filter_setPair_self, hD']

theorem upsert_merge_pairs_sample :
    ∃ D : Document, upsert ⟨fun ps => ps, .refl⟩ ⟨fun ps => ps, .refl⟩ ⟨List.replicate 12 0, rfl⟩
        ⟨[("$set", .document [("v", .string "y")])], by decide⟩ ⟨[("k", .int32 5)], by decide⟩ false =
          .ok (some D) ∧
      D.pairs.filter (·.1 != "_id") =
        (upsertSeed ⟨fun ps => ps, .refl⟩ ⟨[("k", .int32 5)], by decide⟩ ++
          upsertAdded ⟨fun ps => ps, .refl⟩ ⟨[("$set", .document [("v", .string "y")])], by decide⟩
            (upsertSeed ⟨fun ps => ps, .refl⟩ ⟨[("k", .int32 5)], by decide⟩)).filter (·.1 != "_id") :=
  ⟨_, rfl, upsert_merge_pairs _ _ _ _ _ _ (fun setDoc h => by
    obtain rfl : [("v", Value.string "y")] = setDoc := Value.document.inj (Option.some.inj h)
    decide) rfl⟩

theorem mem_of_get {d : Document} {k : String} {v : Value} (h : d.get k = some v) :
    (k, v) ∈ d.pairs := by
  obtain ⟨l₁, l₂, he, -⟩ := List.lookup_eq_some_iff.mp h
  rw [he]
  exact List.mem_append_right _ (.head _)

theorem upsert_of_conflict (oF oS : MapOrder) (newID : ObjectID) (U F : Document)
    {setDoc : List (String × Value)} {key : String} {value fValue : Value}
    (hS : U.get "$set" = some (.document setDoc)) (hm : (key, value) ∈ setDoc)
    (hp : hasPrefix key "$" = false) (hF : F.get key = some fValue)
    (hd : fValue.goType ≠ .document) (hne : Value.deepEqual value fValue = false) :
    upsert oF oS newID U F false =
      if (filterUpsert oF F).2 then .ok none
      else .error (.panic "runtime error: invalid memory address or nil pointer dereference") := by
  have hseed : (key, fValue) ∈ (filterUpsert oF F).1.pairs := by
    rw [(filterUpsert_pairs oF F).1, upsertSeed, List.mem_filter]
    exact ⟨(oF.perm _).mem_iff.mpr (mem_of_get hF), by simp [seedable, hp, hd]⟩
  obtain ⟨e, he⟩ := updateLoop_conflict hp hne (oS.order setDoc) _ false
    ((oS.perm _).mem_iff.mpr hm) ((filterUpsert oF F).1.get_of_mem hseed)
  have hu : updateUpsert oS U (filterUpsert oF F).1 = .error e := by
    rw [updateUpsert, hS]
    exact he
  simp only [upsert, hu, Bool.false_eq_true, if_false, Bool.and_true]
  cases (filterUpsert oF F).2 <;> rfl

/-- `{a: 1}` with `{$set: {a: 2}}`: the merged upsert panics. -/
theorem upsert_conflict_panics (oF oS : MapOrder) (newID : ObjectID) :
    upsert oF oS newID ⟨[("$set", .document [("a", .int32 2)])], by decide⟩
        ⟨[("a", .int32 1)], by decide⟩ false =
      .error (.panic "runtime error: invalid memory address or nil pointer dereference") := by
  rw [upsert_of_conflict oF oS newID ⟨[("$set", .document [("a", .int32 2)])], by decide⟩
      ⟨[("a", .int32 1)], by decide⟩ rfl (List.mem_singleton_self _) rfl rfl (by decide) rfl,
    (filterUpsert_pairs oF _).2]
  simp [upsertSeed, MapOrder.order_singleton, seedable]

/-- In replace mode the fresh ObjectID overwrites the `_id` of the update document. -/
theorem upsert_replace_overwrites_id (oF oS : MapOrder) (o newID : ObjectID) :
    upsert oF oS newID ⟨[("_id", .objectID o), ("x", .int32 1)], by simp⟩ ⟨[], by simp⟩ true =
      .ok (some ⟨[("_id", .objectID newID), ("x", .int32 1)], by simp⟩) := rfl

/-- `{a: [1]}`: in every run the filter's array is copied into the upserted document, since
the `types.Array` check of `filterUpsert` never matches the `*types.Array` a document holds. -/
theorem upsert_keeps_filter_array (oF oS : MapOrder) (newID : ObjectID) :
    upsert oF oS newID ⟨[], by decide⟩ ⟨[("a", .array [.int32 1])], by decide⟩ false =
      .ok (some ⟨[("a", .array [.int32 1]), ("_id", .objectID newID)], by simp⟩) := by
  simp only [upsert, filterUpsert, MapOrder.order_singleton]
  rfl

theorem lookup_perm {ps qs : List (String × Value)} (h : ps.Perm qs)
    (hnd : (ps.map Prod.fst).Nodup) (k : String) : qs.lookup k = ps.lookup k := by
  cases hk : ps.lookup k with
  | some v =>
    exact Document.get_of_mem ⟨qs, (h.map Prod.fst).nodup_iff.mp hnd⟩
      (h.subset (mem_of_get (d := ⟨ps, hnd⟩) hk))
  | none =>
    rw [lookup_eq_none_iff_not_mem] at hk ⊢
    rwa [← (h.map Prod.fst).mem_iff]

theorem lookup_filter (p : String × Value → Bool) (k : String) :
    ∀ {ps : List (String × Value)}, (ps.map Prod.fst).Nodup →
      (ps.filter p).lookup k = (ps.lookup k).filter fun v => p (k, v)
  | [], _ => rfl
  | (k', v) :: ps, hnd => by
    rw [List.map_cons, List.nodup_cons] at hnd
    have ih := lookup_filter p k hnd.2
    by_cases hk : k' = k
    · subst hk
      have hnone : ps.lookup k' = none := lookup_eq_none_iff_not_mem.mpr hnd.1
      by_cases hp : p (k', v) <;> simp [List.filter_cons, hp, ih, hnone, Option.filter]
    · by_cases hp : p (k', v) <;>
        simp [List.filter_cons, hp, ih, List.lookup_cons, beq_false_of_ne (Ne.symm hk)]

theorem isSome_lookup_iff {ps : List (String × Value)} {k : String} :
    (ps.lookup k).isSome ↔ k ∈ ps.map Prod.fst := by
  rw [← not_iff_not, Option.not_isSome_iff_eq_none, lookup_eq_none_iff_not_mem]

theorem any_fst_beq (k : String) :
    ∀ ps : List (String × Value), ps.any (·.1 == k) = (ps.lookup k).isSome
  | [] => rfl
  | (k', v) :: ps => by
    by_cases hk : k' = k
    · simp [hk]
    · simp [hk, List.lookup_cons, beq_false_of_ne (Ne.symm hk), any_fst_beq k ps]

theorem updateUpsert_ok {oS : MapOrder} {U d D : Document} {idUpdate : Bool}
    (hset : ∀ setDoc, U.get "$set" = some (.document setDoc) → (setDoc.map Prod.fst).Nodup)
    (h : updateUpsert oS U d = .ok (D, idUpdate)) :
    D.pairs = d.pairs ++ upsertAdded oS U d.pairs ∧
      idUpdate = (upsertAdded oS U d.pairs).any (·.1 == "_id") := by
  unfold updateUpsert at h
  unfold upsertAdded
  split at h
  · rename_i setDoc hs
    simpa using updateLoop_ok _ _ _ _ _ (oS.nodup_keys (hset setDoc hs)) h
  · simp only [Except.ok.injEq, Prod.mk.injEq] at h
    obtain ⟨rfl, rfl⟩ := h
    simp

theorem upsert_merge_inv {oF oS : MapOrder} {newID : ObjectID} {U F D : Document}
    (h : upsert oF oS newID U F false = .ok (some D)) :
    ∃ D' idUpdate, updateUpsert oS U (filterUpsert oF F).1 = .ok (D', idUpdate) ∧
      D = if !(filterUpsert oF F).2 && !idUpdate then D'.set "_id" (.objectID newID) else D' := by
  rcases hu : updateUpsert oS U (filterUpsert oF F).1 with e | ⟨D', idUpdate⟩ <;>
    simp only [upsert, hu, Bool.false_eq_true, if_false] at h
  · split at h <;> cases h
  · refine ⟨D', idUpdate, rfl, ?_⟩
    split at h <;> rename_i hc <;> simp only [Except.ok.injEq, Option.some.injEq] at h <;>
      simp only [hc, if_true, if_false, h, Bool.false_eq_true]

def setID (updateDoc : Document) : Option Value :=
  match updateDoc.get "$set" with
  | some (.document setDoc) => setDoc.lookup "_id"
  | _ => none

/-- The `_id` an upsert gives its document, read off the two documents alone: a fresh
ObjectID when replacing; when merging, the filter's `_id` unless it is a document (an
operator expression), else the `_id` of `$set`, else a fresh ObjectID. -/
def upsertID (newID : ObjectID) (updateDoc filter : Document) (replace : Bool) : Value :=
  if replace then .objectID newID
  else (((filter.get "_id").filter (·.goType != .document)).or (setID updateDoc)).getD
    (.objectID newID)

theorem lookup_id_upsertSeed (oF : MapOrder) (F : Document) :
    (upsertSeed oF F).lookup "_id" = (F.get "_id").filter (·.goType != .document) := by
  rw [upsertSeed, lookup_filter _ _ (oF.nodup_keys F.nodup), lookup_perm (oF.perm _).symm F.nodup]
  rfl

theorem lookup_id_upsertAdded (oS : MapOrder) (U : Document) (seed : List (String × Value))
    (hset : ∀ setDoc, U.get "$set" = some (.document setDoc) → (setDoc.map Prod.fst).Nodup) :
    (upsertAdded oS U seed).lookup "_id" =
      if (seed.lookup "_id").isSome then none else setID U := by
  unfold upsertAdded setID
  split
  · rename_i setDoc hs
    rw [lookup_filter _ _ (oS.nodup_keys (hset setDoc hs)),
      lookup_perm (oS.perm _).symm (hset setDoc hs)]
    have hp : hasPrefix "_id" "$" = false := by decide
    by_cases hk : "_id" ∈ seed.map Prod.fst
    · rw [if_pos (isSome_lookup_iff.mpr hk)]
      cases setDoc.lookup "_id" <;> simp [Option.filter, hk]
    · rw [if_neg (mt isSome_lookup_iff.mp hk)]
      cases setDoc.lookup "_id" <;> simp [Option.filter, hk, hp]
  · simp

/-- Every document `Upsert` returns holds an `_id`, and which one depends on the two
documents only, not on the order in which either map range visits them: in replace mode the
fresh ObjectID, when merging the filter's plain `_id`, else the `_id` that `$set` adds, else
the fresh ObjectID. -/
theorem upsert_get_id {oF oS : MapOrder} {newID : ObjectID} {U F D : Document} {replace : Bool}
    (hset : ∀ setDoc, U.get "$set" = some (.document setDoc) → (setDoc.map Prod.fst).Nodup)
    (h : upsert oF oS newID U F replace = .ok (some D)) :
    D.get "_id" = some (upsertID newID U F replace) := by
  cases replace with
  | true =>
    simp only [upsert, if_true, Bool.not_false, Bool.and_self, Except.ok.injEq,
      Option.some.injEq] at h
    subst h
    simp [upsertID, Document.get, Document.set]
  | false =>
    obtain ⟨D', idUpdate, hu, rfl⟩ := upsert_merge_inv h
    obtain ⟨hD', hid⟩ := updateUpsert_ok hset hu
    obtain ⟨hseed, hidF⟩ := filterUpsert_pairs oF F
    rw [hseed, any_fst_beq, lookup_id_upsertAdded oS U _ hset] at hid
    rw [hseed] at hD'
    have hget : D'.get "_id" = ((upsertSeed oF F).lookup "_id").or (setID U) := by
      rw [Document.get, hD', List.lookup_append, lookup_id_upsertAdded oS U _ hset]
      cases (upsertSeed oF F).lookup "_id" <;> rfl
    rw [hidF, any_fst_beq, hid, upsertID, if_neg Bool.false_ne_true, ← lookup_id_upsertSeed]
    rw [Document.get] at hget ⊢
    rcases hs : (upsertSeed oF F).lookup "_id" with _ | x <;> rcases hi : setID U with _ | y <;>
      simp [hget, hs, hi, Document.set]

theorem upsert_get_id_sample :
    ∃ D : Document, upsert ⟨fun ps => ps, .refl⟩ ⟨List.reverse, List.reverse_perm⟩
        ⟨List.replicate 12 0, rfl⟩ ⟨[("$set", .document [("v", .string "y"), ("_id", .int32 7)])], by decide⟩
        ⟨[("_id", .document [("$gt", .int32 1)])], by decide⟩ false = .ok (some D) ∧
      D.get "_id" = some (upsertID ⟨List.replicate 12 0, rfl⟩
        ⟨[("$set", .document [("v", .string "y"), ("_id", .int32 7)])], by decide⟩
        ⟨[("_id", .document [("$gt", .int32 1)])], by decide⟩ false) :=
  ⟨_, rfl, upsert_get_id (fun setDoc h => by
    obtain rfl : [("v", Value.string "y"), ("_id", .int32 7)] = setDoc :=
      Value.document.inj (Option.some.inj h)
    decide) (show upsert ⟨fun ps => ps, .refl⟩ ⟨List.reverse, List.reverse_perm⟩ _ _ _ false = _ from rfl)⟩

theorem upsert_get_of_seedable {oF oS : MapOrder} {newID : ObjectID} {U F D : Document}
    (hset : ∀ setDoc, U.get "$set" = some (.document setDoc) → (setDoc.map Prod.fst).Nodup)
    (h : upsert oF oS newID U F false = .ok (some D)) {kv : String × Value} (hkv : kv ∈ F.pairs)
    (hs : seedable kv = true) : D.get kv.1 = some kv.2 := by
  have hseed : kv ∈ upsertSeed oF F := List.mem_filter.mpr ⟨(oF.perm _).mem_iff.mpr hkv, hs⟩
  obtain ⟨D', idUpdate, hu, rfl⟩ := upsert_merge_inv h
  obtain ⟨hseedF, hidF⟩ := filterUpsert_pairs oF F
  have hD' : D'.get kv.1 = some kv.2 := by
    refine D'.get_of_mem ?_
    rw [(updateUpsert_ok hset hu).1, hseedF]
    exact List.mem_append_left _ hseed
  split
  · rename_i hnone
    have hk : kv.1 ≠ "_id" := by
      intro hk
      simp only [hidF, Bool.and_eq_true, Bool.not_eq_true', List.any_eq_false] at hnone
      exact hnone.1 kv hseed (by simp [hk])
    rw [Document.get, Document.set, lookup_setPair_of_ne _ _ hk]
    exact hD'
  · exact hD'

end HanaCompat.Jsonb1
