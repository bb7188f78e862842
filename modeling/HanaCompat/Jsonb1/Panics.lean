import HanaCompat.Jsonb1.Where

namespace HanaCompat.Jsonb1

def NoPanic (r : Compiled) : Prop := ∀ m, r ≠ .error (.panic m)

theorem NoPanic.ok (r : Sql × List Arg × Nat) : NoPanic (.ok r) := fun _ h => Except.noConfusion h

theorem NoPanic.error_error (e : GoError) : NoPanic (.error (.error e)) := fun _ h => by cases h

theorem NoPanic.error_wrap {e : Fault} (he : NoPanic (.error e)) (ctx : String) :
    NoPanic (.error (e.wrap ctx)) := by
  cases e with
  | error e => exact NoPanic.error_error _
  | panic m => exact absurd rfl (he m)

theorem NoPanic.mapError_wrap {r : Compiled} (hr : NoPanic r) (ctx : String) :
    NoPanic (r.mapError (Fault.wrap ctx)) := by
  rcases r with e | r
  · exact hr.error_wrap ctx
  · exact NoPanic.ok _

/-- `common.LogicExpr` panics only when the callback does on a pair of a document of the
array. -/
def LogicExprNoPanic (logicExpr : LogicExpr) : Prop :=
  ∀ op exprs p cb, (∀ ps, Value.document ps ∈ exprs → ∀ kv ∈ ps, ∀ h q, NoPanic (cb kv.1 kv.2 h q)) →
    NoPanic (logicExpr op exprs p cb)

/-- `common.InArray` panics only when the element compiler does. -/
def InArrayNoPanic (inArray : InArray) : Prop :=
  ∀ a p f, (∀ v q, NoPanic (f v q)) → NoPanic (inArray a p f)

mutual

/-- An operator document gives `$in` and `$nin` an array and `$not` an operator document
of the same kind. -/
def opsAsserted : List (String × Value) → Bool
  | [] => true
  | (op, v) :: rest =>
    (if op = "$options" then true
     else if op = "$not" then notAsserted v
     else if op = "$in" ∨ op = "$nin" then v.isArray
     else true) && opsAsserted rest

def notAsserted : Value → Bool
  | .document inner => opsAsserted inner
  | _ => false

end

mutual

/-- A filter pair passes every assertion it reaches: a `$` key holds an array whose
documents are filters of the same kind, a plain key's operator document is asserted. -/
def pairAsserted (key : String) : Value → Bool
  | .array exprs => if hasPrefix key "$" then elemsAsserted exprs else true
  | .document expr => !hasPrefix key "$" && opsAsserted expr
  | _ => !hasPrefix key "$"

def elemsAsserted : List Value → Bool
  | [] => true
  | .document ps :: rest => pairsAsserted ps && elemsAsserted rest
  | _ :: rest => elemsAsserted rest

def pairsAsserted : List (String × Value) → Bool
  | [] => true
  | (key, value) :: rest => pairAsserted key value && pairsAsserted rest

end

theorem pairAsserted_of_mem : ∀ {ps : List (String × Value)}, pairsAsserted ps = true →
    ∀ {kv}, kv ∈ ps → pairAsserted kv.1 kv.2 = true
  | (key, value) :: rest, h, kv, hkv => by
    simp only [pairsAsserted, Bool.and_eq_true] at h
    rcases List.mem_cons.mp hkv with rfl | hm
    · exact h.1
    · exact pairAsserted_of_mem h.2 hm

theorem pairsAsserted_of_mem : ∀ {exprs : List Value}, elemsAsserted exprs = true →
    ∀ {ps}, Value.document ps ∈ exprs → pairsAsserted ps = true
  | e :: rest, h, ps, hps => by
    rcases List.mem_cons.mp hps with rfl | hm
    · simp only [elemsAsserted, Bool.and_eq_true] at h
      exact h.1
    · have hrest : elemsAsserted rest = true := by
        cases e <;> simp_all [elemsAsserted]
      exact pairsAsserted_of_mem hrest hm

theorem scalar_noPanic (v : Value) (p : Nat) : NoPanic (scalar v p) := by
  intro m h
  unfold scalar at h
  split at h
  any_goals cases h
  split at h <;> cases h

theorem operand_noPanic {r : Compiled} (hr : NoPanic r) (head : Sql) (field : String) :
    NoPanic (operand head field r) := by
  rcases r with e | ⟨s, a, q⟩
  · exact hr.error_wrap _
  · exact NoPanic.ok _

theorem fieldOp_noPanic {inArray : InArray} (hI : InArrayNoPanic inArray) (field : String)
    (fm : List (String × Value)) (op : String) (value : Value) (p : Nat)
    (hv : (op = "$in" ∨ op = "$nin") → value.isArray = true) :
    NoPanic (fieldOp inArray field fm op value p) := by
  have hs : ∀ v, NoPanic (scalar v (p + 1)) := fun v => scalar_noPanic v _
  have hin : ∀ a, NoPanic (inArray a (p + 1) scalar) := fun a => hI a _ _ scalar_noPanic
  unfold fieldOp
  split
  · split
    · exact operand_noPanic (hin _) _ _
    · rename_i hna
      cases value <;> first | exact absurd rfl (hna _) | cases hv (.inl rfl)
  · split
    · exact operand_noPanic (hin _) _ _
    · rename_i hna
      cases value <;> first | exact absurd rfl (hna _) | cases hv (.inr rfl)
  iterate 6 exact operand_noPanic (hs _) _ _
  · split
    · intro m h
      rename_i e he
      cases h
      unfold optionsOf at he
      split at he <;> cases he
    · split
      · intro m h
        rename_i e he
        cases h
        unfold regexValue at he
        split at he <;> (try split at he) <;> (try split at he) <;> cases he
      · exact operand_noPanic (hs _) _ _
  · exact NoPanic.error_error _

mutual

theorem fieldExprLoop_noPanic {inArray : InArray} (hI : InArrayNoPanic inArray) (field : String) :
    ∀ (fm ops : List (String × Value)) (sql : Sql) (args : List Arg) (p : Nat),
      opsAsserted ops = true → NoPanic (fieldExprLoop inArray field fm ops sql args p)
  | _, [], _, _, _, _ => by
    rw [fieldExprLoop]
    exact NoPanic.ok _
  | fm, (op, value) :: rest, sql, args, p, h => by
    simp only [opsAsserted, Bool.and_eq_true] at h
    unfold fieldExprLoop
    split
    · exact fieldExprLoop_noPanic hI field fm rest sql args p h.2
    · rename_i hopt
      split
      · rename_i hnot
        rw [if_neg hopt, if_pos hnot] at h
        have hn := fieldExprNot_noPanic hI field value p h.1
        split
        · rename_i e he
          rw [he] at hn
          exact hn.error_wrap _
        · exact fieldExprLoop_noPanic hI field fm rest _ _ _ h.2
      · rename_i hnot
        rw [if_neg hopt, if_neg hnot] at h
        have hop := fieldOp_noPanic hI field fm op value p fun hio => by
          simpa only [if_pos hio] using h.1
        split
        · rename_i e he
          rwa [he] at hop
        · exact fieldExprLoop_noPanic hI field fm rest _ _ _ h.2

theorem fieldExprNot_noPanic {inArray : InArray} (hI : InArrayNoPanic inArray) (field : String) :
    ∀ (v : Value) (p : Nat), notAsserted v = true → NoPanic (fieldExprNot inArray field v p)
  | .document inner, p, h => fieldExprLoop_noPanic hI field inner inner [] [] p h
  | .double _, _, h | .string _, _, h | .array _, _, h | .bool _, _, h | .datetime _, _, h
  | .null, _, h | .int32 _, _, h | .int64 _, _, h | .objectID _, _, h | .regex _ _, _, h => by
    cases h

end

theorem pairScalar_noPanic {r : Compiled} (hr : NoPanic r) (head : Sql) (key : String) :
    NoPanic (pairScalar head key r) := by
  rcases r with e | ⟨s, a, q⟩
  · exact hr.error_wrap _
  · exact NoPanic.ok _

theorem wherePair_noPanic (c : Common) (hL : LogicExprNoPanic c.logicExpr)
    (hI : InArrayNoPanic c.inArray) (key : String) (value : Value) (p : Nat) :
    pairAsserted key value = true → NoPanic (wherePair c key value p) := by
  induction key, value, p using wherePair.induct c with
  | case1 key p hk exprs ih =>
    intro h
    rw [pairAsserted, if_pos hk] at h
    unfold wherePair
    rw [if_pos hk]
    exact hL key exprs p _ fun ps hps kv hkv hs q =>
      ih kv.1 kv.2 hs q (pairAsserted_of_mem (pairsAsserted_of_mem h hps) hkv)
  | case2 key value p hk hv =>
    intro h
    cases value <;> first | exact absurd rfl (hv _) | simp [pairAsserted, hk] at h
  | case3 key p hk expr =>
    intro h
    simp only [pairAsserted, hk, Bool.not_false, Bool.true_and] at h
    unfold wherePair
    rw [if_neg hk]
    exact (fieldExprLoop_noPanic hI key expr expr [] [] p h).mapError_wrap _
  | case4 key p hk pattern options =>
    intro _
    unfold wherePair
    rw [if_neg hk]
    exact pairScalar_noPanic (scalar_noPanic _ _) _ _
  | case5 key value p hk hd hr =>
    intro _
    unfold wherePair
    rw [if_neg hk]
    split
    · exact absurd rfl (hd _)
    · exact absurd rfl (hr _ _)
    · exact pairScalar_noPanic (scalar_noPanic _ _) _ _

theorem whereLoop_noPanic (c : Common) (hL : LogicExprNoPanic c.logicExpr)
    (hI : InArrayNoPanic c.inArray) : ∀ (ps : List (String × Value)) (i : Nat) (sql : Sql)
      (args : List Arg) (p : Nat), pairsAsserted ps = true → NoPanic (whereLoop c ps i sql args p)
  | [], _, _, _, _, _ => by
    rw [whereLoop]
    exact NoPanic.ok _
  | (key, value) :: rest, i, sql, args, p, h => by
    simp only [pairsAsserted, Bool.and_eq_true] at h
    have hw := wherePair_noPanic c hL hI key value p h.1
    rw [whereLoop]
    split
    · rename_i e he
      rw [he] at hw
      exact hw.error_wrap _
    · exact whereLoop_noPanic c hL hI rest _ _ _ _ h.2

/-- `where` panics only on its type assertions: for helpers that do not panic themselves,
a filter whose `$` keys hold arrays and whose `$in`, `$nin` and `$not` operators hold arrays
and documents, at every depth, compiles or fails with an error. -/
theorem where_noPanic (c : Common) (hL : LogicExprNoPanic c.logicExpr)
    (hI : InArrayNoPanic c.inArray) (F : Document) (hF : pairsAsserted F.pairs = true)
    (p : Nat) : NoPanic («where» c F p) := by
  unfold «where»
  split
  · exact NoPanic.ok _
  · exact whereLoop_noPanic c hL hI F.pairs 0 _ [] p hF

theorem joinWith_noPanic (sep : String) :
    ∀ (gs : List (Nat → Compiled)), (∀ g ∈ gs, ∀ q, NoPanic (g q)) → ∀ p, NoPanic (joinWith sep gs p)
  | [], _, p => by
    rw [joinWith]
    exact NoPanic.ok _
  | [g], h, p => h g (.head _) p
  | g :: g' :: gs, h, p => by
    have hg := h g (.head _) p
    have hgs := joinWith_noPanic sep (g' :: gs) (fun g'' hm => h g'' (.tail _ hm))
    rw [joinWith.eq_3 sep p g (g' :: gs) nofun]
    split
    · rename_i e he
      rwa [he] at hg
    · rename_i q _
      split
      · rename_i e he
        have := hgs q
        rwa [he] at this
      · exact NoPanic.ok _

theorem enclose_noPanic {r : Compiled} (hr : NoPanic r) (pre : String) : NoPanic (enclose pre r) := by
  rcases r with e | ⟨s, a, q⟩
  · exact hr
  · exact NoPanic.ok _

theorem inArraySpec_noPanic : InArrayNoPanic inArraySpec := fun a p f hf =>
  enclose_noPanic (joinWith_noPanic _ _ (by
    intro g hg q
    obtain ⟨v, -, rfl⟩ := List.mem_map.mp hg
    exact hf v q) p) _

theorem logicExprSpec_noPanic : LogicExprNoPanic logicExprSpec := by
  intro op exprs p cb hcb
  have helems : ∀ g ∈ exprs.attach.map (fun e => logicElem exprs cb e.1 e.2), ∀ q, NoPanic (g q) := by
    intro g hg q
    obtain ⟨⟨e, he⟩, -, rfl⟩ := List.mem_map.mp hg
    cases e with
    | document ps =>
      refine enclose_noPanic (joinWith_noPanic _ _ ?_ q) _
      intro g' hg' q'
      obtain ⟨⟨kv, hkv⟩, -, rfl⟩ := List.mem_map.mp hg'
      exact hcb ps he kv hkv _ q'
    | _ => exact NoPanic.error_error _
  unfold logicExprSpec
  dsimp only
  split
  · exact joinWith_noPanic _ _ helems p
  · split
    · exact joinWith_noPanic _ _ helems p
    · split
      · exact enclose_noPanic (joinWith_noPanic _ _ helems p) _
      · exact NoPanic.error_error _

theorem where_noPanic_spec :
    LogicExprNoPanic specCommon.logicExpr ∧ InArrayNoPanic specCommon.inArray ∧
      pairsAsserted [("$or", .array [.document [("a", .document [("$not",
        .document [("$in", .array [.int32 1])])])], .document [("b", .string "x")]]),
        ("c", .document [("$nin", .array [])])] = true ∧
      NoPanic («where» specCommon ⟨[("$or", .array [.document [("a", .document [("$not",
        .document [("$in", .array [.int32 1])])])], .document [("b", .string "x")]]),
        ("c", .document [("$nin", .array [])])], by decide⟩ 0) :=
  ⟨logicExprSpec_noPanic, inArraySpec_noPanic, by decide,
    where_noPanic specCommon logicExprSpec_noPanic inArraySpec_noPanic _ (by decide) 0⟩

end HanaCompat.Jsonb1
