import HanaCompat.Jsonb1.Projection

namespace HanaCompat.Jsonb1

def nodeAt : List String → List (String × Value) → Option (List (String × Value))
  | [], ps => some ps
  | k :: ks, ps =>
    match ps.lookup k with
    | some (.document qs) => nodeAt ks qs
    | _ => none

def modifyAt (f : List (String × Value) → List (String × Value)) :
    List String → List (String × Value) → List (String × Value)
  | [], ps => f ps
  | k :: ks, ps =>
    match ps.lookup k with
    | some (.document qs) => setPair ps k (.document (modifyAt f ks qs))
    | _ => ps

/-- The dynamic value of the walk's `next`: the `*types.Document` being projected, a
`types.Document` that `Get` returned (by its path from the root), or anything else: a
scalar, an array, or the nil of a failed `Get`. -/
inductive Next where
  | root
  | doc (path : List String)
  | other

/-- The variables of `projectDocument`'s walk along a dotted field. A `types.Document`
variable is the sub-document at a path of the document being projected, since the copy
that `Get` returns shares its map and key array with the stored one, or (`none`) the zero
document it was declared as. -/
structure Walk where
  next : Next
  previousS : String
  previousDoc : Option (List String)
  ppDoc : Option (List String)
  ppS : String
  projErr : Bool

def getAt (doc : List (String × Value)) (path : List String) (s : String) : Next × Bool :=
  match (nodeAt path doc).bind (·.lookup s) with
  | some (.document _) => (.doc (path ++ [s]), false)
  | some _ => (.other, false)
  | none => (.other, true)

def walkStep (doc : List (String × Value)) (w : Walk) (s : String) : Walk :=
  match w.next with
  | .root =>
    let (next, projErr) := getAt doc [] s
    { w with next := next, previousS := s, ppDoc := w.previousDoc, projErr := projErr }
  | .doc path =>
    let (next, projErr) := getAt doc path s
    { next := next, previousS := s, previousDoc := some path, ppDoc := w.previousDoc,
      ppS := w.previousS, projErr := projErr }
  | .other => w

/-- What the stored sub-document shows after `Remove(k)` ran on the copy `Get` returned. The
copy's `append(keys[:i], keys[i+1:]...)` shifts the keys after `k` one place left in the key
array both share, while the stored slice keeps its length, so its last key appears twice; the
shared map has lost `k`. When `k` was the last key the stored keys still end with it, but it
has no value left in the map, and the pairs drop it. -/
def removeShared (ps : List (String × Value)) (k : String) : List (String × Value) :=
  match ps.lookup k with
  | none => ps
  | some _ => removePair ps k ++ (ps.getLast?.filter (·.1 != k)).toList

/-- The dotted-field branch of `projectDocument`: the walk along the segments, then
`previousDoc.Remove(previousS)` on the copy the walk holds, which the stored sub-document
sees through the map and key array they share, and `ppDoc.Set(ppS, previousDoc)`, which
stores the copy in its parent. On the zero document `ppDoc` of a two-segment path, `Set`
changes nothing the caller sees. -/
def removeSegments (doc : List (String × Value)) (segments : List String) :
    List (String × Value) :=
  let w := segments.foldl (walkStep doc) ⟨.root, "", none, none, "", false⟩
  if w.projErr then doc
  else
    match w.previousDoc with
    | none => doc
    | some path =>
      let stored := modifyAt (removeShared · w.previousS) path doc
      match w.ppDoc, nodeAt path doc with
      | some pp, some copy =>
        modifyAt (setPair · w.ppS (.document (removePair copy w.previousS))) pp stored
      | _, _ => stored

/-- `projectDocument`: every field of the projection, in the order of one `range` over
its map, is removed. The source takes an `exclusion` flag that it never reads. -/
def projectDocument (order : MapOrder) (projection : Document)
    (doc : List (String × Value)) : List (String × Value) :=
  (order.order projection.pairs).foldl (fun doc kv =>
    if containsChar kv.1 '.' then removeSegments doc (split kv.1 '.') else removePair doc kv.1) doc

/-- `ProjectDocuments` from index `i`: the array as the loop leaves it and the error it
returns. Each element's `range` over the projection takes its own order. -/
def projectDocuments (orders : Nat → MapOrder) (projection : Document) (exclusion : Bool) :
    Nat → List Value → List Value × Option GoError
  | _, [] => ([], none)
  | i, .document ps :: rest =>
    let (rest', err) := projectDocuments orders projection exclusion (i + 1) rest
    (.document (projectDocument (orders i) projection ps) :: rest', err)
  | _, v :: rest => (v :: rest, some (.lazy "Array contains a type not being types.Document"))

theorem foldl_removePair (ps : List (String × Value)) : ∀ fields : List (String × Value),
    fields.foldl (fun doc kv => removePair doc kv.1) ps =
      ps.filter fun kv => kv.1 ∉ fields.map Prod.fst
  | [] => by simp
  | f :: fields => by
    rw [List.foldl_cons, foldl_removePair _ fields, removePair, List.filter_filter]
    refine List.filter_congr fun kv _ => ?_
    by_cases h : kv.1 = f.1 <;> simp [h]

theorem projectDocument_of_flat (order : MapOrder) (projection : Document)
    (doc : List (String × Value)) (hflat : ∀ k ∈ projection.keys, containsChar k '.' = false) :
    projectDocument order projection doc =
      doc.filter fun kv => kv.1 ∉ projection.keys := by
  have hperm := order.perm projection.pairs
  rw [projectDocument, List.foldl_ext _ (fun doc kv => removePair doc kv.1), foldl_removePair]
  · exact List.filter_congr fun kv _ => by simp only [((hperm.map Prod.fst).mem_iff), Document.keys]
  · intro d kv hkv
    rw [hflat kv.1 (List.mem_map_of_mem Prod.fst (hperm.mem_iff.mp hkv)), if_neg Bool.false_ne_true]

/-- Where a dotted field's path stops in `ps`: the walk enters sub-documents while it can,
and stops at the last segment or at the first value that is not a document. The path of the
sub-document holding the key it stops at, and that key; none when a segment is missing. -/
def pathStop (ps : List (String × Value)) : List String → Option (List String × String)
  | [] => none
  | [s] => if (ps.lookup s).isSome then some ([], s) else none
  | s :: s' :: rest =>
    match ps.lookup s with
    | some (.document qs) => (pathStop qs (s' :: rest)).map fun (path, k) => (s :: path, k)
    | some _ => some ([], s)
    | none => none

/-- `pd` and `s`, the walk's `previousDoc` and `previousS` (or `ppDoc` and `ppS`), name the
sub-document at `path`: it is the entry `s` of the sub-document at `pd`, or the entry `s` of
the root, when `pd` is the zero document. -/
def Names (pd : Option (List String)) (s : String) (path : List String) : Prop :=
  pd = none ∧ path = [s] ∨ ∃ p, pd = some p ∧ p ≠ [] ∧ path = p ++ [s]

theorem nodeAt_of_pathStop : ∀ {ps : List (String × Value)} {segs path : List String} {k : String},
    pathStop ps segs = some (path, k) → ∃ node, nodeAt path ps = some node
  | _, [], _, _, h => by cases h
  | ps, [_], _, _, h => by
    simp only [pathStop] at h
    split at h <;> cases h
    exact ⟨ps, rfl⟩
  | ps, s :: _ :: _, _, _, h => by
    simp only [pathStop] at h
    split at h
    · rename_i qs hqs
      obtain ⟨⟨rel, k'⟩, hrel, he⟩ := Option.map_eq_some'.mp h
      cases he
      obtain ⟨node, hn⟩ := nodeAt_of_pathStop hrel
      exact ⟨node, by simp only [nodeAt, hqs, hn]⟩
    · cases h
      exact ⟨ps, rfl⟩
    · cases h

theorem nodeAt_append (s : String) : ∀ (path : List String) (ps : List (String × Value)),
    nodeAt (path ++ [s]) ps = (nodeAt path ps).bind fun qs =>
      match qs.lookup s with
      | some (.document rs) => some rs
      | _ => none
  | [], ps => by
    simp only [List.nil_append, nodeAt, Option.some_bind]
  | k :: ks, ps => by
    simp only [List.cons_append, nodeAt]
    split
    · exact nodeAt_append s ks _
    · rfl

theorem walk_other (doc : List (String × Value)) :
    ∀ (segs : List String) (w : Walk), w.next = .other → segs.foldl (walkStep doc) w = w
  | [], _, _ => rfl
  | s :: segs, w, h => by
    rw [List.foldl_cons, show walkStep doc w s = w by simp only [walkStep, h]]
    exact walk_other doc segs w h

theorem foldl_walkStep_other (doc : List (String × Value)) (segs : List String) (s : String)
    (pd pp : Option (List String)) (ps : String) (e : Bool) :
    segs.foldl (walkStep doc) ⟨.other, s, pd, pp, ps, e⟩ = ⟨.other, s, pd, pp, ps, e⟩ :=
  walk_other doc segs _ rfl

theorem getAt_of_nodeAt {doc : List (String × Value)} {path : List String}
    {node : List (String × Value)} (h : nodeAt path doc = some node) (s : String) :
    getAt doc path s =
      match node.lookup s with
      | some (.document _) => (.doc (path ++ [s]), false)
      | some _ => (.other, false)
      | none => (.other, true) := by
  simp only [getAt, h, Option.some_bind]

theorem walkStep_root (doc : List (String × Value)) (s : String) :
    walkStep doc ⟨.root, "", none, none, "", false⟩ s =
      match doc.lookup s with
      | some (.document _) => ⟨.doc [s], s, none, none, "", false⟩
      | some _ => ⟨.other, s, none, none, "", false⟩
      | none => ⟨.other, s, none, none, "", true⟩ := by
  simp only [walkStep, getAt, nodeAt, Option.some_bind]
  split <;> rfl

theorem setPair_setPair : ∀ (ps : List (String × Value)) (k : String) (v w : Value),
    setPair (setPair ps k v) k w = setPair ps k w
  | [], _, _, _ => by simp [setPair]
  | (k', _) :: ps, k, v, w => by
    by_cases hk : k' = k
    · simp [setPair, hk]
    · simp [setPair, hk, setPair_setPair ps k v w]

theorem modifyAt_setPair_after (f g : List (String × Value) → List (String × Value)) (s : String) :
    ∀ (pp : List String) (doc node : List (String × Value)), nodeAt (pp ++ [s]) doc = some node →
      modifyAt (setPair · s (.document (g node))) pp (modifyAt f (pp ++ [s]) doc) =
        modifyAt g (pp ++ [s]) doc
  | [], doc, node, h => by
    simp only [List.nil_append, nodeAt] at h
    split at h
    · rename_i qs hqs
      cases h
      simp only [List.nil_append, modifyAt, hqs, setPair_setPair]
    · cases h
  | p :: pp, doc, node, h => by
    simp only [List.cons_append, nodeAt] at h
    split at h
    · rename_i qs hqs
      simp only [List.cons_append, modifyAt, hqs, lookup_setPair_self, setPair_setPair, List.append_eq,
        modifyAt_setPair_after f g s pp qs node h]
    · cases h

theorem walk_doc (doc : List (String × Value)) :
    ∀ (segs : List String) (path : List String) (node : List (String × Value)) (w : Walk),
      segs ≠ [] → path ≠ [] → w.next = .doc path → nodeAt path doc = some node →
      Names w.previousDoc w.previousS path →
      (pathStop node segs = none → (segs.foldl (walkStep doc) w).projErr = true) ∧
      ∀ rel k, pathStop node segs = some (rel, k) →
        (segs.foldl (walkStep doc) w).projErr = false ∧
        (segs.foldl (walkStep doc) w).previousDoc = some (path ++ rel) ∧
        (segs.foldl (walkStep doc) w).previousS = k ∧
        Names (segs.foldl (walkStep doc) w).ppDoc (segs.foldl (walkStep doc) w).ppS (path ++ rel)
  | s :: rest, path, node, w, _, hne, hw, hn, hnames => by
    have hstep : walkStep doc w s =
        match node.lookup s with
        | some (.document _) => ⟨.doc (path ++ [s]), s, some path, w.previousDoc, w.previousS, false⟩
        | some _ => ⟨.other, s, some path, w.previousDoc, w.previousS, false⟩
        | none => ⟨.other, s, some path, w.previousDoc, w.previousS, true⟩ := by
      simp only [walkStep, hw, getAt_of_nodeAt hn]
      split <;> rfl
    rw [List.foldl_cons, hstep]
    cases hl : node.lookup s with
    | none =>
      rw [walk_other doc rest _ rfl]
      cases rest <;> simp [pathStop, hl]
    | some v =>
      cases rest with
      | nil =>
        have hstop : pathStop node [s] = some ([], s) := by simp [pathStop, hl]
        rw [hstop]
        refine ⟨nofun, fun rel k h => ?_⟩
        obtain ⟨rfl, rfl⟩ := Prod.mk.inj (Option.some.inj h)
        cases v <;> exact ⟨rfl, by simp, rfl, by simpa using hnames⟩
      | cons s' rest =>
        cases v with
        | document qs =>
          have hqs : nodeAt (path ++ [s]) doc = some qs := by
            rw [nodeAt_append, hn, Option.some_bind, hl]
          obtain ⟨ih₁, ih₂⟩ := walk_doc doc (s' :: rest) (path ++ [s]) qs
            ⟨.doc (path ++ [s]), s, some path, w.previousDoc, w.previousS, false⟩ nofun (by simp) rfl
            hqs (.inr ⟨path, rfl, hne, rfl⟩)
          simp only [pathStop, hl]
          refine ⟨fun h => ih₁ (Option.map_eq_none'.mp h), fun rel k h => ?_⟩
          obtain ⟨⟨rel', k'⟩, hs, he⟩ := Option.map_eq_some'.mp h
          obtain ⟨rfl, rfl⟩ := Prod.mk.inj he
          simpa using ih₂ rel' k' hs
        | _ =>
          have hstop : pathStop node (s :: s' :: rest) = some ([], s) := by simp [pathStop, hl]
          rw [walk_other doc _ _ rfl, hstop]
          refine ⟨nofun, fun rel k h => ?_⟩
          obtain ⟨rfl, rfl⟩ := Prod.mk.inj (Option.some.inj h)
          exact ⟨rfl, by simp, rfl, by simpa using hnames⟩

example : removeSegments [("a", .document [("b", .int32 1), ("c", .int32 2)])] ["a", "b"] =
    [("a", .document [("c", .int32 2), ("c", .int32 2)])] := rfl

/-- `ProjectDocuments` over any array, cut after its longest prefix of documents: those are
projected, each with the range order of its own iteration; the first element that is not a
document and all after it are left as they are, and the error is returned exactly when there
is such an element. A failure does not undo the documents already projected. -/
theorem projectDocuments_eq (orders : Nat → MapOrder) (projection : Document) (exclusion : Bool) :
    ∀ (i : Nat) (pre : List (List (String × Value))) (rest : List Value),
      (∀ ps, rest.head? ≠ some (.document ps)) →
      projectDocuments orders projection exclusion i (pre.map .document ++ rest) =
        (pre.mapIdx (fun j ps => .document (projectDocument (orders (i + j)) projection ps)) ++ rest,
          if rest.isEmpty then none else some (.lazy "Array contains a type not being types.Document"))
  | _, [], [], _ => rfl
  | _, [], v :: rest, hv => by
    cases v with
    | document ps => exact absurd rfl (hv ps)
    | _ => rfl
  | i, ps :: pre, rest, hv => by
    rw [List.map_cons, List.cons_append, projectDocuments,
      projectDocuments_eq orders projection exclusion (i + 1) pre rest hv, List.mapIdx_cons]
    simp [Nat.add_assoc, Nat.add_comm 1]

theorem projectDocuments_stops_sample :
    (∀ ps, [Value.int32 5, .document [("a", .int32 1)]].head? ≠ some (.document ps)) ∧
      projectDocuments (fun _ => ⟨fun ps => ps, .refl⟩) ⟨[("a", .int32 0)], by decide⟩ true 0
          ([[("a", .int32 1), ("b", .int32 2)]].map .document ++ [.int32 5, .document [("a", .int32 1)]]) =
        ([[("a", .int32 1), ("b", .int32 2)]].mapIdx (fun j ps =>
            .document (projectDocument ((fun _ => ⟨fun ps => ps, .refl⟩ : Nat → MapOrder) (0 + j))
              ⟨[("a", .int32 0)], by decide⟩ ps)) ++
          [.int32 5, .document [("a", .int32 1)]],
          if [Value.int32 5, .document [("a", .int32 1)]].isEmpty then none
          else some (.lazy "Array contains a type not being types.Document")) :=
  ⟨fun _ h => Value.noConfusion (Option.some.inj h),
    projectDocuments_eq _ _ true 0 _ _ fun _ h => Value.noConfusion (Option.some.inj h)⟩

theorem projection_ok_true {P : Document} {sql : String} (h : projection P = .ok (sql, true)) :
    sql = "*" ∧ isProjectionInclusion P = .ok false := by
  unfold projection at h
  split at h
  · cases h
  · split at h
    · cases h
    · split at h <;> cases h
      exact ⟨rfl, ‹_›⟩

theorem excludes_of_isProjectionInclusion {P : Document} (h : isProjectionInclusion P = .ok false) :
    ∀ kv ∈ P.pairs, kv.1 ≠ "_id" → projectionValue kv.2 = some false := by
  have key := isProjectionInclusion_toOption P
  rw [h] at key
  split at key
  · cases key
  rename_i hrej
  have hinc : includes P.pairs = false := (Option.some.inj key).symm
  simp only [projectionRejected, Bool.or_eq_true, Bool.and_eq_true, not_or] at hrej
  intro kv hm hk
  cases hv : projectionValue kv.2 with
  | none => exact absurd (List.any_eq_true.mpr ⟨kv, hm, by simp [hk, hv]⟩) hrej.1.1
  | some b =>
    cases b
    · rfl
    · have := List.any_eq_false.mp hinc kv hm
      simp [hk, hv] at this

theorem projectDocuments_of_flat (orders : Nat → MapOrder) (P : Document) (exclusion : Bool)
    (hflat : ∀ k ∈ P.keys, containsChar k '.' = false) :
    ∀ (i : Nat) (docs : List (List (String × Value))),
      projectDocuments orders P exclusion i (docs.map .document) =
        (docs.map fun ps => .document (ps.filter fun kv => kv.1 ∉ P.keys), none)
  | _, [] => rfl
  | i, ps :: docs => by
    rw [List.map_cons, projectDocuments, projectDocuments_of_flat orders P exclusion hflat (i + 1) docs,
      projectDocument_of_flat _ _ _ hflat]
    rfl

/-- An exclusion projection without dotted fields, through the find path: the SQL selects
whole documents, every field the projection names other than `_id` is set to exclude, and
the post-filter removes from every document each field the projection names, `_id` too
whatever value the projection gives it. -/
theorem exclusion_projection_removes_named (P : Document) {sql : String}
    (h : projection P = .ok (sql, true)) (hflat : ∀ k ∈ P.keys, containsChar k '.' = false)
    (orders : Nat → MapOrder) (docs : List (List (String × Value))) :
    sql = "*" ∧ (∀ kv ∈ P.pairs, kv.1 ≠ "_id" → projectionValue kv.2 = some false) ∧
      projectDocuments orders P true 0 (docs.map .document) =
        (docs.map fun ps => .document (ps.filter fun kv => kv.1 ∉ P.keys), none) :=
  ⟨(projection_ok_true h).1, excludes_of_isProjectionInclusion (projection_ok_true h).2,
    projectDocuments_of_flat orders P true hflat 0 docs⟩

theorem exclusion_projection_removes_named_id :
    projection ⟨[("_id", .int32 1), ("a", .int32 0)], by decide⟩ = .ok ("*", true) ∧
      (∀ k ∈ [("_id", Value.int32 1), ("a", .int32 0)].map Prod.fst, containsChar k '.' = false) ∧
      "*" = "*" ∧ (∀ kv ∈ [("_id", Value.int32 1), ("a", .int32 0)], kv.1 ≠ "_id" →
        projectionValue kv.2 = some false) ∧
      projectDocuments (fun _ => ⟨fun ps => ps, .refl⟩) ⟨[("_id", .int32 1), ("a", .int32 0)], by decide⟩
          true 0 ([[("_id", .int32 7), ("a", .int32 1), ("b", .int32 2)]].map .document) =
        ([[("_id", Value.int32 7), ("a", .int32 1), ("b", .int32 2)]].map fun ps =>
          .document (ps.filter fun kv => kv.1 ∉ [("_id", Value.int32 1), ("a", .int32 0)].map Prod.fst),
          none) :=
  ⟨rfl, by decide, exclusion_projection_removes_named ⟨[("_id", .int32 1), ("a", .int32 0)], by decide⟩
    rfl (by decide) _ _⟩

/-- `{_id: 1, a: 0}` is an exclusion projection, and post-filtering `{_id: o, a: 1}` with it
removes `_id` too. -/
theorem projectDocuments_removes_included_id (orders : Nat → MapOrder) (o : ObjectID) :
    projection ⟨[("_id", .int32 1), ("a", .int32 0)], by decide⟩ = .ok ("*", true) ∧
      projectDocuments orders ⟨[("_id", .int32 1), ("a", .int32 0)], by decide⟩ true 0
        [.document [("_id", .objectID o), ("a", .int32 1)]] = ([.document []], none) := by
  refine ⟨rfl, ?_⟩
  simp only [projectDocuments,
    projectDocument_of_flat (orders 0) ⟨[("_id", .int32 1), ("a", .int32 0)], by decide⟩ _ (by decide)]
  rfl

end HanaCompat.Jsonb1
