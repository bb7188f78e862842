import HanaCompat.Types

namespace HanaCompat.Jsonb1

/-- What a projection value asks for: `some true` includes, `some false` excludes, `none`
is not a projection value. A number excludes when `types.CompareScalars(v, int32(0))` is
`0`, that is when it equals zero (for a float64, IEEE `==`, so `-0.0` excludes too). -/
def projectionValue : Value → Option Bool
  | .bool b => some b
  | .int32 n => some (n != 0)
  | .int64 n => some (n != 0)
  | .double x => some !(Value.floatEq x 0)
  | _ => none

/-- The loop of `isProjectionInclusion` over `projection.Keys()` with its two mode flags.
The `bool` and number cases of its type switch have the same body, here written once. -/
def inclusionLoop (projection : Document) : List String → Bool → Bool → Except GoError Bool
  | [], inclusion, _ => .ok inclusion
  | k :: ks, inclusion, exclusion =>
    if k = "_id" then inclusionLoop projection ks inclusion exclusion
    else
      match projection.get k with
      | none => .error (.lazy "no value for %s.")
      | some v =>
        match projectionValue v with
        | some true =>
          if exclusion then
            .error (.lazy "Cannot do inclusion on field #\x7bk\x7d in exclusion projection")
          else if containsChar k '.' then
            .error (.lazy "Projection on nested documents is not implemented, yet.")
          else inclusionLoop projection ks true exclusion
        | some false =>
          if inclusion then
            .error (.lazy "Cannot do exclusion on field #\x7bk\x7d in inclusion projection")
          else inclusionLoop projection ks inclusion true
        | none => .error (.lazy "unsupported operation %s %v (%T)")

def isProjectionInclusion (projection : Document) : Except GoError Bool :=
  inclusionLoop projection projection.keys false false

def idEntry : String := "\"_id\": \"_id\", "

def fieldEntry (k : String) : String := "\"" ++ k ++ "\": \"" ++ k ++ "\""

def idHead (projection : Document) : String :=
  match projection.get "_id" with
  | some id => if projectionValue id = some true then idEntry else ""
  | none => idEntry

def inclusionEntries : List String → Nat → String → String
  | [], _, sql => sql
  | k :: ks, i, sql =>
    if k = "_id" then inclusionEntries ks (i + 1) sql
    else inclusionEntries ks (i + 1) ((if i ≠ 0 then sql ++ ", " else sql) ++ fieldEntry k)

def inclusionProjection (projection : Document) : String :=
  inclusionEntries projection.keys 0 ("\x7b" ++ idHead projection) ++ "\x7d"

def unimplementedFields : List String := ["$", "$elemMatch", "$meta", "$slice", "$comment", "$rand"]

/-- Modelled from the spec: `common.Unimplemented`, absent from src/, as a NotImplemented
error for the first of `fields` that the document has. -/
def unimplemented (doc : Document) : List String → Except GoError Unit
  | [] => .ok ()
  | f :: fs =>
    if (doc.get f).isSome then
      .error (.command .notImplemented "%s: support for field %q is not implemented yet")
    else unimplemented doc fs

/-- `Projection`: the SELECT list, and whether the post-filter has to exclude. -/
def projection (P : Document) : Except GoError (String × Bool) :=
  match unimplemented P unimplementedFields with
  | .error e => .error e
  | .ok () =>
    if P.pairs.isEmpty then .ok ("*", false)
    else
      match isProjectionInclusion P with
      | .error e => .error e
      | .ok true => .ok (inclusionProjection P, false)
      | .ok false => .ok ("*", true)

def includes (ps : List (String × Value)) : Bool :=
  ps.any fun kv => kv.1 != "_id" && projectionValue kv.2 == some true

def excludes (ps : List (String × Value)) : Bool :=
  ps.any fun kv => kv.1 != "_id" && projectionValue kv.2 == some false

def unsupported (ps : List (String × Value)) : Bool :=
  ps.any fun kv => kv.1 != "_id" && projectionValue kv.2 == none

def nestedInclusion (ps : List (String × Value)) : Bool :=
  ps.any fun kv => kv.1 != "_id" && projectionValue kv.2 == some true && containsChar kv.1 '.'

/-- A projection the spec rejects: a value that is not one, both modes, or a dotted inclusion. -/
def projectionRejected (ps : List (String × Value)) : Bool :=
  unsupported ps || includes ps && excludes ps || nestedInclusion ps

@[simp] theorem includes_cons (k : String) (v : Value) (ps : List (String × Value)) :
    includes ((k, v) :: ps) = (k != "_id" && projectionValue v == some true || includes ps) := rfl

@[simp] theorem excludes_cons (k : String) (v : Value) (ps : List (String × Value)) :
    excludes ((k, v) :: ps) = (k != "_id" && projectionValue v == some false || excludes ps) := rfl

@[simp] theorem unsupported_cons (k : String) (v : Value) (ps : List (String × Value)) :
    unsupported ((k, v) :: ps) = (k != "_id" && projectionValue v == none || unsupported ps) := rfl

@[simp] theorem nestedInclusion_cons (k : String) (v : Value) (ps : List (String × Value)) :
    nestedInclusion ((k, v) :: ps) =
      (k != "_id" && projectionValue v == some true && containsChar k '.' || nestedInclusion ps) := rfl

theorem inclusionLoop_toOption (projection : Document) :
    ∀ (ps : List (String × Value)), (∀ kv ∈ ps, projection.get kv.1 = some kv.2) →
      ∀ inclusion exclusion,
        (inclusionLoop projection (ps.map Prod.fst) inclusion exclusion).toOption =
          if unsupported ps || includes ps && (exclusion || excludes ps) ||
              inclusion && excludes ps || nestedInclusion ps then none
          else some (inclusion || includes ps)
  | [], _, inclusion, exclusion => by
    simp [inclusionLoop, unsupported, includes, excludes, nestedInclusion, Except.toOption]
  | (k, v) :: rest, hget, inclusion, exclusion => by
    have ih := inclusionLoop_toOption projection rest fun kv hm => hget kv (.tail _ hm)
    have hv : projection.get k = some v := hget _ (.head _)
    by_cases hk : k = "_id"
    · subst hk
      simp [inclusionLoop, ih]
    · have hk' : (k != "_id") = true := bne_iff_ne.mpr hk
      simp only [List.map_cons, inclusionLoop, if_neg hk, hv, includes_cons, excludes_cons,
        unsupported_cons, nestedInclusion_cons, hk', Bool.true_and]
      rcases projectionValue v with _ | _ | _ <;> dsimp only
      · simp [Except.toOption]
      · cases inclusion
        · simp [ih]
        · simp [Except.toOption]
      · cases exclusion
        · cases containsChar k '.'
          · simp only [Bool.false_eq_true, if_false, ih]
            cases excludes rest <;> simp
          · simp [Except.toOption]
        · simp [Except.toOption]

theorem any_eq_of_perm {ps qs : List (String × Value)} (h : ps.Perm qs)
    (f : String × Value → Bool) : ps.any f = qs.any f :=
  Bool.eq_iff_iff.mpr (by simp only [List.any_eq_true, h.mem_iff])

theorem isProjectionInclusion_toOption (P : Document) :
    (isProjectionInclusion P).toOption =
      if projectionRejected P.pairs then none else some (includes P.pairs) := by
  have h := inclusionLoop_toOption P P.pairs (fun _ => P.get_of_mem) false false
  simp only [Bool.false_or, Bool.false_and, Bool.or_false] at h
  exact h

def separatedEntries : List String → String
  | [] => ""
  | k :: ks => ", " ++ fieldEntry k ++ separatedEntries ks

theorem inclusionEntries_succ : ∀ (ks : List String) (i : Nat) (sql : String),
    inclusionEntries ks (i + 1) sql = sql ++ separatedEntries (ks.filter (· != "_id"))
  | [], _, sql => (String.append_empty sql).symm
  | k :: ks, i, sql => by
    by_cases hk : k = "_id"
    · simp [inclusionEntries, hk, inclusionEntries_succ ks]
    · simp [inclusionEntries, hk, inclusionEntries_succ ks, separatedEntries, String.append_assoc]

/-- With `_id` first, a separator also precedes the first field entry: right after the
`_id` entry, which ends in one already, or right after the brace when `_id` excludes. -/
theorem inclusionProjection_of_first_id (P : Document) {ks : List String}
    (hkeys : P.keys = "_id" :: ks) :
    inclusionProjection P = "\x7b" ++ idHead P ++ separatedEntries (ks.filter (· != "_id")) ++
      "\x7d" := by
  simp [inclusionProjection, hkeys, inclusionEntries, inclusionEntries_succ]

/-- `{_id: 0, a: 1}` is an inclusion projection whose SELECT list starts with a comma. -/
theorem inclusionProjection_id_excluded_first :
    isProjectionInclusion ⟨[("_id", .int32 0), ("a", .int32 1)], by decide⟩ = .ok true ∧
      inclusionProjection ⟨[("_id", .int32 0), ("a", .int32 1)], by decide⟩ =
        "\x7b, \"a\": \"a\"\x7d" :=
  ⟨rfl, by rw [@inclusionProjection_of_first_id ⟨[("_id", .int32 0), ("a", .int32 1)], by decide⟩ ["a"] rfl]; rfl⟩

end HanaCompat.Jsonb1
