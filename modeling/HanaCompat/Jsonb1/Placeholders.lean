import HanaCompat.Jsonb1.Where

namespace HanaCompat.Jsonb1

def params : Sql → List Nat
  | [] => []
  | .lit _ :: rest => params rest
  | .param n :: rest => n :: params rest

def isFieldMarker (s : String) : Bool :=
  "_jsonb->".toList.isSuffixOf s.toList || "_jsonb->>".toList.isSuffixOf s.toList

/-- The tokens of `sql` that directly follow a field marker; `prev` is the literal piece
just before `sql`, if any. -/
def fieldParamsAfter : Option String → Sql → List Nat
  | _, [] => []
  | _, .lit s :: rest => fieldParamsAfter (some s) rest
  | prev, .param n :: rest =>
    (if prev.any isFieldMarker then [n] else []) ++ fieldParamsAfter none rest

def fieldParams (sql : Sql) : List Nat := fieldParamsAfter none sql

def Arg.isField : Arg → Bool
  | .field _ => true
  | _ => false

def fieldSlots : Nat → List Arg → List Nat
  | _, [] => []
  | n, a :: as => (if a.isField then [n] else []) ++ fieldSlots (n + 1) as

/-- `args` are aligned with the tokens of `sql` for a compiler that took the counter from
`p` to `q`: it advanced by `args.length`, tokens `p + 1, p + 2, …` occur once each in
order, and a token follows `_jsonb->`/`_jsonb->>` exactly when its argument is a field name. -/
structure Aligned (p : Nat) (sql : Sql) (args : List Arg) (q : Nat) : Prop where
  advance : q = p + args.length
  tokens : params sql = List.range' (p + 1) args.length
  fields : fieldParams sql = fieldSlots (p + 1) args

def AlignedFrom (p : Nat) (r : Compiled) : Prop :=
  ∀ sql args q, r = .ok (sql, args, q) → Aligned p sql args q

/-- `common.InArray` keeps its own tokens aligned when its element compiler does. -/
def InArrayAligned (inArray : InArray) : Prop :=
  ∀ a p f, (∀ v q, AlignedFrom q (f v q)) → AlignedFrom p (inArray a p f)

/-- `common.LogicExpr` keeps its own tokens aligned when its callback does. -/
def LogicExprAligned (logicExpr : LogicExpr) : Prop :=
  ∀ op exprs p cb, (∀ k v h q, AlignedFrom q (cb k v h q)) → AlignedFrom p (logicExpr op exprs p cb)

@[simp] theorem params_append (s t : Sql) : params (s ++ t) = params s ++ params t := by
  induction s with
  | nil => rfl
  | cons x s ih => cases x <;> simp [params, ih]

theorem fieldSlots_append (n : Nat) (a b : List Arg) :
    fieldSlots n (a ++ b) = fieldSlots n a ++ fieldSlots (n + a.length) b := by
  induction a generalizing n with
  | nil => rfl
  | cons x a ih => simp [fieldSlots, ih, Nat.add_assoc, Nat.add_comm 1]

theorem fieldParamsAfter_of_not_marker {x : String} (hx : isFieldMarker x = false) (s : Sql) :
    fieldParamsAfter (some x) s = fieldParams s := by
  cases s with
  | nil => rfl
  | cons y s => cases y <;> simp [fieldParamsAfter, fieldParams, hx]

theorem fieldParamsAfter_append (prev : Option String) (s t : Sql)
    (ht : ∀ n u, t ≠ .param n :: u) :
    fieldParamsAfter prev (s ++ t) = fieldParamsAfter prev s ++ fieldParams t := by
  induction s generalizing prev with
  | nil =>
    cases t with
    | nil => rfl
    | cons y t => cases y with
      | lit => rfl
      | param n => exact absurd rfl (ht n t)
  | cons y s ih => cases y <;> simp [fieldParamsAfter, ih]

namespace Aligned

theorem nil (p : Nat) : Aligned p [] [] p := ⟨rfl, rfl, rfl⟩

theorem append {p q r : Nat} {s t : Sql} {a b : List Arg} (h₁ : Aligned p s a q)
    (h₂ : Aligned q t b r) (ht : ∀ n u, t ≠ .param n :: u) : Aligned p (s ++ t) (a ++ b) r where
  advance := by rw [h₂.advance, h₁.advance, List.length_append, Nat.add_assoc]
  tokens := by
    rw [params_append, h₁.tokens, h₂.tokens, h₁.advance, List.length_append,
      Nat.add_right_comm, List.range'_append_1, Nat.add_comm b.length]
  fields := by
    rw [fieldParams, fieldParamsAfter_append _ _ _ ht, ← fieldParams, h₁.fields, h₂.fields,
      fieldSlots_append, h₁.advance, Nat.add_right_comm]

theorem lit (p : Nat) (x : String) : Aligned p [.lit x] [] p := ⟨rfl, rfl, rfl⟩

theorem append_lits {p q : Nat} {s : Sql} {a : List Arg} (h : Aligned p s a q) (xs : List String) :
    Aligned p (s ++ xs.map .lit) a q := by
  have hx : Aligned q (xs.map .lit) [] q := by
    induction xs with
    | nil => exact nil q
    | cons x xs ih => simpa using (lit q x).append ih (by cases xs <;> simp)
  simpa using h.append hx (by cases xs <;> simp)

theorem cons_lit {p q : Nat} {s : Sql} {a : List Arg} {x : String}
    (hx : isFieldMarker x = false) (h : Aligned p s a q) : Aligned p (.lit x :: s) a q :=
  ⟨h.advance, by simpa [params] using h.tokens, by
    rw [fieldParams, fieldParamsAfter, fieldParamsAfter_of_not_marker hx, h.fields]⟩

theorem fieldToken {m : String} (hm : isFieldMarker m = true) (p : Nat) (f : String) :
    Aligned p [.lit m, .param (p + 1)] [.field f] (p + 1) :=
  ⟨rfl, rfl, by simp [fieldParams, fieldParamsAfter, fieldSlots, Arg.isField, hm]⟩

theorem comparison {m o : String} (hm : isFieldMarker m = true) (ho : isFieldMarker o = false)
    {p q : Nat} (f : String) {s : Sql} {a : List Arg} (h : Aligned (p + 1) s a q) :
    Aligned p ([.lit m, .param (p + 1), .lit o] ++ s) (.field f :: a) q := by
  simpa using (fieldToken hm p f).append (h.cons_lit ho) (by simp)

end Aligned

theorem scalar_aligned (v : Value) (p : Nat) : AlignedFrom p (scalar v p) := by
  intro sql args q h
  unfold scalar at h
  split at h
  · cases h; exact ⟨rfl, rfl, rfl⟩
  · cases h; exact ⟨rfl, rfl, rfl⟩
  · cases h; exact ⟨rfl, rfl, rfl⟩
  · split at h
    · cases h
    · cases h; exact ⟨rfl, rfl, rfl⟩
  · cases h

def StartsLit (s : Sql) : Prop := ∀ n u, s ≠ .param n :: u

theorem operand_aligned {m o : String} (hm : isFieldMarker m = true)
    (ho : isFieldMarker o = false) {p : Nat} {f : String} {r : Compiled} (hr : AlignedFrom (p + 1) r) :
    ∀ s a q, operand [.lit m, .param (p + 1), .lit o] f r = .ok (s, a, q) →
      Aligned p s a q ∧ StartsLit s := by
  intro s a q h
  cases r with
  | error => cases h
  | ok r =>
    obtain ⟨s', a', q'⟩ := r
    cases h
    exact ⟨Aligned.comparison hm ho f ((hr _ _ _ rfl).cons_lit rfl), by simp [StartsLit]⟩

theorem fieldOp_aligned {inArray : InArray} (hI : InArrayAligned inArray) (field : String)
    (fm : List (String × Value)) (op : String) (value : Value) (p : Nat) :
    ∀ s a q, fieldOp inArray field fm op value p = .ok (s, a, q) → Aligned p s a q ∧ StartsLit s := by
  have hs : ∀ v, AlignedFrom (p + 1) (scalar v (p + 1)) := fun v => scalar_aligned v _
  have hin : ∀ arr, AlignedFrom (p + 1) (inArray arr (p + 1) scalar) :=
    fun arr => hI arr _ _ scalar_aligned
  intro s a q h
  unfold fieldOp at h
  split at h
  · split at h
    · exact operand_aligned (by decide) (by decide) (hin _) s a q h
    · cases h
  · split at h
    · exact operand_aligned (by decide) (by decide) (hin _) s a q h
    · cases h
  iterate 6 exact operand_aligned (by decide) (by decide) (hs _) s a q h
  · split at h
    · cases h
    · split at h
      · cases h
      · exact operand_aligned (by decide) (by decide) (hs _) s a q h
  · cases h

theorem andSep_aligned {p q : Nat} {s : Sql} {a : List Arg} (h : Aligned p s a q) :
    Aligned p (andSep s) a q := by
  unfold andSep
  split
  · exact h
  · exact h.append_lits [" AND", " "]

mutual

theorem fieldExprLoop_aligned {inArray : InArray} (hI : InArrayAligned inArray) (field : String) :
    ∀ (fm ops : List (String × Value)) (sql : Sql) (args : List Arg) (p₀ p : Nat),
      Aligned p₀ sql args p → AlignedFrom p₀ (fieldExprLoop inArray field fm ops sql args p)
  | _, [], _, _, _, _, h => by
    intro s a q e
    cases e
    exact h
  | fm, (op, value) :: rest, sql, args, p₀, p, h => by
    intro s a q e
    unfold fieldExprLoop at e
    split at e
    · exact fieldExprLoop_aligned hI field fm rest sql args p₀ p h s a q e
    · split at e
      · split at e
        · cases e
        · rename_i argSql arg q' hn
          have hn' := fieldExprNot_aligned hI field value p argSql arg q' hn
          refine fieldExprLoop_aligned hI field fm rest _ _ p₀ q' ?_ s a q e
          have hnot := ((hn'.append_lits [")"]).cons_lit (x := "NOT(") rfl)
          simpa [List.append_assoc] using (andSep_aligned h).append hnot (by simp)
      · split at e
        · cases e
        · rename_i s' a' q' hop
          obtain ⟨hal, hst⟩ := fieldOp_aligned hI field fm op value p s' a' q' hop
          exact fieldExprLoop_aligned hI field fm rest _ _ p₀ q'
            ((andSep_aligned h).append hal hst) s a q e

theorem fieldExprNot_aligned {inArray : InArray} (hI : InArrayAligned inArray) (field : String) :
    ∀ (v : Value) (p : Nat), AlignedFrom p (fieldExprNot inArray field v p)
  | .document inner, p => fieldExprLoop_aligned hI field inner inner [] [] p p (Aligned.nil p)
  | .double _, _ | .string _, _ | .array _, _ | .bool _, _ | .datetime _, _ | .null, _
  | .int32 _, _ | .int64 _, _ | .objectID _, _ | .regex _ _, _ => by
    intro s a q e; cases e

end

theorem pairScalar_aligned {m o : String} (hm : isFieldMarker m = true)
    (ho : isFieldMarker o = false) {p : Nat} {key : String} {r : Compiled} (hr : AlignedFrom (p + 1) r) :
    AlignedFrom p (pairScalar [.lit m, .param (p + 1), .lit o] key r) := by
  intro s a q h
  cases r with
  | error => cases h
  | ok r =>
    obtain ⟨s', a', q'⟩ := r
    cases h
    exact Aligned.comparison hm ho key (hr _ _ _ rfl)

theorem wherePair_aligned (c : Common) (hL : LogicExprAligned c.logicExpr)
    (hI : InArrayAligned c.inArray) (key : String) (value : Value) (p : Nat) :
    AlignedFrom p (wherePair c key value p) := by
  induction key, value, p using wherePair.induct c with
  | case1 key p hk exprs ih =>
    unfold wherePair
    rw [if_pos hk]
    exact hL key exprs p _ ih
  | case2 key value p hk hv =>
    unfold wherePair
    rw [if_pos hk]
    split
    · exact absurd rfl (hv _)
    · intro s a q h; cases h
  | case3 key p hk expr =>
    unfold wherePair
    rw [if_neg hk]
    intro s a q h
    dsimp only at h
    cases hf : fieldExpr c.inArray key expr p with
    | error => rw [hf] at h; cases h
    | ok r =>
      rw [hf] at h
      cases h
      exact fieldExprLoop_aligned hI key expr expr [] [] p p (Aligned.nil p) _ _ _ hf
  | case4 key p hk =>
    unfold wherePair
    rw [if_neg hk]
    exact pairScalar_aligned (by decide) (by decide) (scalar_aligned _ _)
  | case5 key value p hk hd hr =>
    unfold wherePair
    rw [if_neg hk]
    split
    · exact absurd rfl (hd _)
    · exact absurd rfl (hr _ _)
    · exact pairScalar_aligned (by decide) (by decide) (scalar_aligned _ _)

theorem whereLoop_aligned (c : Common) (hL : LogicExprAligned c.logicExpr)
    (hI : InArrayAligned c.inArray) (ps : List (String × Value)) :
    ∀ i sql args p₀ p, Aligned p₀ sql args p → AlignedFrom p₀ (whereLoop c ps i sql args p) := by
  induction ps with
  | nil => intro i sql args p₀ p h s a q e; cases e; exact h
  | cons kv rest ih =>
    obtain ⟨key, value⟩ := kv
    intro i sql args p₀ p h s a q e
    simp only [whereLoop] at e
    split at e
    · cases e
    · rename_i argSql arg q' hw
      refine ih (i + 1) _ _ p₀ q' ?_ s a q e
      have hsep : Aligned p₀ (if i ≠ 0 then sql ++ [.lit " AND"] else sql) args p := by
        split
        · exact h.append_lits [" AND"]
        · exact h
      have hp := (wherePair_aligned c hL hI key value p argSql arg q' hw).cons_lit (x := " (") rfl
      simpa using (hsep.append hp (by simp)).append_lits [")"]

theorem where_aligned (c : Common) (hL : LogicExprAligned c.logicExpr)
    (hI : InArrayAligned c.inArray) (F : Document) (p : Nat) : AlignedFrom p («where» c F p) := by
  unfold «where»
  split
  · intro s a q e; cases e; exact Aligned.nil p
  · exact whereLoop_aligned c hL hI F.pairs 0 _ [] p p (Aligned.lit p _)

theorem le_of_mem_fieldSlots {n x : Nat} {as : List Arg} (h : x ∈ fieldSlots n as) : n ≤ x := by
  induction as generalizing n with
  | nil => cases h
  | cons a as ih =>
    simp only [fieldSlots, List.mem_append] at h
    rcases h with h | h
    · split at h <;> simp_all
    · have := ih h; omega

theorem mem_fieldSlots_iff (n : Nat) (as : List Arg) (i : Nat) (hi : i < as.length) :
    n + i ∈ fieldSlots n as ↔ as[i].isField = true := by
  induction as generalizing n i with
  | nil => cases hi
  | cons a as ih =>
    simp only [fieldSlots, List.mem_append]
    cases i with
    | zero =>
      have : n ∉ fieldSlots (n + 1) as := fun h => by have := le_of_mem_fieldSlots h; omega
      split <;> simp_all
    | succ i =>
      have := ih (n + 1) i (by simpa using hi)
      rw [show n + (i + 1) = n + 1 + i by omega, List.getElem_cons_succ, ← this]
      split <;> simp [show n + 1 + i ≠ n by omega]

/-- The argument `scalar` binds for a value it compiles. -/
def argOf : Value → List Arg
  | .int32 n => [.int32 n]
  | .string s => [.string s]
  | .objectID id => [.objectID id]
  | .regex pattern opts =>
    let options := (regexOptions opts.toList).1
    [.string (if options ≠ "" then "(?" ++ options ++ ")" ++ pattern else pattern)]
  | _ => []

/-- The values an operator other than `$not` and `$options` compares its field with: the
array of `$in`/`$nin`, the regex of `$regex` with the options of `$options`, or its operand. -/
def operandsOf (fm : List (String × Value)) (op : String) (v : Value) : List Value :=
  if op = "$in" ∨ op = "$nin" then
    match v with
    | .array a => a
    | _ => []
  else if op = "$regex" then
    match optionsOf fm >>= fun o => regexValue o v with
    | .ok r => [r]
    | .error _ => []
  else [v]

mutual

def opsCompared (fm : List (String × Value)) : List (String × Value) → List (List Value)
  | [] => []
  | (op, v) :: rest =>
    (if op = "$options" then [] else if op = "$not" then notCompared v else [operandsOf fm op v]) ++
      opsCompared fm rest

def notCompared : Value → List (List Value)
  | .document inner => opsCompared inner inner
  | _ => []

end

def docPairs : Value → List (String × Value)
  | .document ps => ps
  | _ => []

def pairsIn (exprs : List Value) : List (String × Value) := exprs.flatMap docPairs

theorem flatMap_attach_val {α β : Type} (l : List α) (f : α → List β) :
    (l.attach.flatMap fun x => f x.1) = l.flatMap f := by
  simp only [List.flatMap_def]
  exact congrArg List.flatten (List.attach_map_val l f)

theorem sizeOf_lt_of_mem_pairsIn {exprs : List Value} {kv : String × Value}
    (h : kv ∈ pairsIn exprs) : sizeOf kv.2 < sizeOf exprs := by
  obtain ⟨e, he, hkv⟩ := List.mem_flatMap.mp h
  cases e with
  | document ps => exact sizeOf_lt_of_mem_document he hkv
  | _ => cases hkv

/-- The comparisons a filter pair makes, in the order the filter states them: the field
compared and the values compared with it. A logical pair makes those of the pairs of its
documents. -/
def comparisons (key : String) (value : Value) : List (String × List Value) :=
  if hasPrefix key "$" then
    match value with
    | .array exprs => (pairsIn exprs).attach.flatMap fun kv => comparisons kv.1.1 kv.1.2
    | _ => []
  else
    match value with
    | .document ops => (opsCompared ops ops).map (key, ·)
    | v => [(key, [v])]
termination_by sizeOf value
decreasing_by
  simp_wf
  have := sizeOf_lt_of_mem_pairsIn kv.2
  omega

/-- The arguments the comparisons bind: each one's field name, then the values compared. -/
def bindings (cs : List (String × List Value)) : List Arg :=
  cs.flatMap fun c => .field c.1 :: c.2.flatMap argOf

@[simp] theorem bindings_append (cs ds : List (String × List Value)) :
    bindings (cs ++ ds) = bindings cs ++ bindings ds := List.flatMap_append _ _ _

theorem comparisons_logic {key : String} (hk : hasPrefix key "$" = true) (exprs : List Value) :
    comparisons key (.array exprs) = (pairsIn exprs).flatMap fun kv => comparisons kv.1 kv.2 := by
  rw [comparisons, if_pos hk]
  exact flatMap_attach_val (pairsIn exprs) fun kv => comparisons kv.1 kv.2

def Binds (B : List Arg) (r : Compiled) : Prop := ∀ sql args q, r = .ok (sql, args, q) → args = B

/-- `common.InArray` binds its elements' arguments, in order, when its element compiler
binds each element's. -/
def InArrayBinds (inArray : InArray) : Prop :=
  ∀ a p f (B : Value → List Arg), (∀ v q, Binds (B v) (f v q)) → Binds (a.flatMap B) (inArray a p f)

/-- `common.LogicExpr` binds the arguments of the pairs of its documents, in order, when its
callback binds each pair's. -/
def LogicExprBinds (logicExpr : LogicExpr) : Prop :=
  ∀ op exprs p cb (B : String × Value → List Arg), (∀ k v h q, Binds (B (k, v)) (cb k v h q)) →
    Binds ((pairsIn exprs).flatMap B) (logicExpr op exprs p cb)

theorem scalar_binds (v : Value) (p : Nat) : Binds (argOf v) (scalar v p) := by
  intro sql args q h
  unfold scalar at h
  split at h
  · cases h; rfl
  · cases h; rfl
  · cases h; rfl
  · split at h
    · cases h
    · rename_i hopts
      cases h
      simp only [argOf, hopts]
  · cases h

theorem operand_binds {head : Sql} {field : String} {B : List Arg} {r : Compiled} (hr : Binds B r) :
    Binds (.field field :: B) (operand head field r) := by
  intro s a q h
  cases r with
  | error => cases h
  | ok r =>
    obtain ⟨s', a', q'⟩ := r
    cases h
    rw [hr _ _ _ rfl]

theorem fieldOp_binds {inArray : InArray} (hI : InArrayBinds inArray) (field : String)
    (fm : List (String × Value)) (op : String) (value : Value) (p : Nat) :
    Binds (bindings [(field, operandsOf fm op value)]) (fieldOp inArray field fm op value p) := by
  have hs : ∀ v q, Binds (argOf v) (scalar v q) := scalar_binds
  simp only [bindings, List.flatMap_singleton]
  unfold fieldOp
  split
  · split
    · simpa [operandsOf] using operand_binds (hI _ (p + 1) scalar argOf hs)
    · intro s a q h; cases h
  · split
    · simpa [operandsOf] using operand_binds (hI _ (p + 1) scalar argOf hs)
    · intro s a q h; cases h
  iterate 6 simpa [operandsOf] using operand_binds (hs value (p + 1))
  · split
    · intro s a q h; cases h
    · rename_i o ho
      split
      · intro s a q h; cases h
      · rename_i r hr
        simpa [operandsOf, ho, hr, bind, Except.bind] using operand_binds (hs r (p + 1))
  · intro s a q h; cases h

mutual

theorem fieldExprLoop_binds {inArray : InArray} (hI : InArrayBinds inArray) (field : String) :
    ∀ (fm ops : List (String × Value)) (sql : Sql) (args : List Arg) (p : Nat),
      Binds (args ++ bindings ((opsCompared fm ops).map (field, ·)))
        (fieldExprLoop inArray field fm ops sql args p)
  | _, [], _, _, _ => by
    intro s a q e
    cases e
    simp [opsCompared, bindings]
  | fm, (op, value) :: rest, sql, args, p => by
    intro s a q e
    unfold fieldExprLoop at e
    simp only [opsCompared, List.map_append, bindings_append]
    split at e
    · rename_i hop
      simpa [hop, bindings] using fieldExprLoop_binds hI field fm rest sql args p s a q e
    · rename_i hop
      split at e
      · rename_i hnot
        split at e
        · cases e
        · rename_i argSql arg q' hn
          rw [fieldExprLoop_binds hI field fm rest _ _ q' s a q e,
            fieldExprNot_binds hI field value p argSql arg q' hn]
          simp [hop, hnot]
      · rename_i hnot
        split at e
        · cases e
        · rename_i s' a' q' hf
          rw [fieldExprLoop_binds hI field fm rest _ _ q' s a q e,
            fieldOp_binds hI field fm op value p s' a' q' hf]
          simp [hop, hnot]

theorem fieldExprNot_binds {inArray : InArray} (hI : InArrayBinds inArray) (field : String) :
    ∀ (v : Value) (p : Nat), Binds (bindings ((notCompared v).map (field, ·))) (fieldExprNot inArray field v p)
  | .document inner, p => by
    simpa [notCompared] using fieldExprLoop_binds hI field inner inner [] [] p
  | .double _, _ | .string _, _ | .array _, _ | .bool _, _ | .datetime _, _ | .null, _
  | .int32 _, _ | .int64 _, _ | .objectID _, _ | .regex _ _, _ => by
    intro s a q e; cases e

end

theorem pairScalar_binds {head : Sql} {key : String} {B : List Arg} {r : Compiled} (hr : Binds B r) :
    Binds (.field key :: B) (pairScalar head key r) := by
  intro s a q h
  cases r with
  | error => cases h
  | ok r =>
    obtain ⟨s', a', q'⟩ := r
    cases h
    rw [hr _ _ _ rfl]

theorem wherePair_binds (c : Common) (hL : LogicExprBinds c.logicExpr) (hI : InArrayBinds c.inArray)
    (key : String) (value : Value) (p : Nat) :
    Binds (bindings (comparisons key value)) (wherePair c key value p) := by
  induction key, value, p using wherePair.induct c with
  | case1 key p hk exprs ih =>
    unfold wherePair
    rw [if_pos hk, comparisons_logic hk]
    simp only [bindings, List.flatMap_assoc]
    exact hL key exprs p _ (fun kv => bindings (comparisons kv.1 kv.2)) ih
  | case2 key value p hk hv =>
    unfold wherePair
    rw [if_pos hk]
    split
    · exact absurd rfl (hv _)
    · intro s a q h; cases h
  | case3 key p hk expr =>
    unfold wherePair
    rw [if_neg hk]
    intro s a q h
    dsimp only at h
    cases hf : fieldExpr c.inArray key expr p with
    | error => rw [hf] at h; cases h
    | ok r =>
      rw [hf] at h
      cases h
      rw [fieldExprLoop_binds hI key expr expr [] [] p _ _ _ hf, comparisons, if_neg hk]
      rfl
  | case4 key p hk =>
    unfold wherePair comparisons
    rw [if_neg hk, if_neg hk]
    simpa [bindings] using pairScalar_binds (scalar_binds _ _)
  | case5 key value p hk hd hr =>
    have hc : comparisons key value = [(key, [value])] := by
      unfold comparisons
      rw [if_neg hk]
      split
      · exact absurd rfl (hd _)
      · rfl
    unfold wherePair
    rw [if_neg hk, hc]
    split
    · exact absurd rfl (hd _)
    · exact absurd rfl (hr _ _)
    · simpa [bindings] using pairScalar_binds (scalar_binds _ _)

theorem whereLoop_binds (c : Common) (hL : LogicExprBinds c.logicExpr) (hI : InArrayBinds c.inArray)
    (ps : List (String × Value)) : ∀ i sql args p,
      Binds (args ++ bindings (ps.flatMap fun kv => comparisons kv.1 kv.2)) (whereLoop c ps i sql args p) := by
  induction ps with
  | nil => intro i sql args p s a q e; cases e; simp [bindings]
  | cons kv rest ih =>
    obtain ⟨key, value⟩ := kv
    intro i sql args p s a q e
    simp only [whereLoop] at e
    split at e
    · cases e
    · rename_i argSql arg q' hw
      rw [ih (i + 1) _ _ q' s a q e, wherePair_binds c hL hI key value p argSql arg q' hw]
      simp

/-- Placeholder alignment of the filter compiler: from any starting counter `p`, a
successful `where` advances the counter by `len(args)`, its tokens are `p + 1, …,
p + len(args)`, each once and in order, and the token bound to `args[i]` follows
`_jsonb->`/`_jsonb->>` exactly when `args[i]` is a field name. The arguments are, for each
comparison of the filter in order, the name of the field it compares and then the values
it compares that field with. The helpers of package `common` are assumed to keep their own
tokens aligned and to bind what their callbacks bind. -/
theorem where_placeholders (c : Common) (hL : LogicExprAligned c.logicExpr)
    (hI : InArrayAligned c.inArray) (hLb : LogicExprBinds c.logicExpr) (hIb : InArrayBinds c.inArray)
    (F : Document) (p : Nat) {sql : Sql} {args : List Arg}
    {q : Nat} (h : «where» c F p = .ok (sql, args, q)) :
    q = p + args.length ∧ params sql = List.range' (p + 1) args.length ∧
      (∀ i (hi : i < args.length), p + 1 + i ∈ fieldParams sql ↔ args[i].isField = true) ∧
      args = bindings (F.pairs.flatMap fun kv => comparisons kv.1 kv.2) := by
  obtain ⟨h₁, h₂, h₃⟩ := where_aligned c hL hI F p sql args q h
  refine ⟨h₁, h₂, fun i hi => h₃ ▸ mem_fieldSlots_iff (p + 1) args i hi, ?_⟩
  unfold «where» at h
  split at h
  · rename_i he
    cases h
    rw [List.isEmpty_iff.mp he]
    rfl
  · simpa using whereLoop_binds c hLb hIb F.pairs 0 _ [] p sql args q h

theorem joinWith_cons_cons_ok {sep : String} {g g' : Nat → Compiled} {gs : List (Nat → Compiled)}
    {p : Nat} {s : Sql} {a : List Arg} {q : Nat} (h : joinWith sep (g :: g' :: gs) p = .ok (s, a, q)) :
    ∃ s₁ a₁ q₁ s₂ a₂, g p = .ok (s₁, a₁, q₁) ∧ joinWith sep (g' :: gs) q₁ = .ok (s₂, a₂, q) ∧
      s = s₁ ++ .lit sep :: s₂ ∧ a = a₁ ++ a₂ := by
  simp only [joinWith] at h
  cases h₁ : g p with
  | error => rw [h₁] at h; cases h
  | ok r₁ =>
    obtain ⟨s₁, a₁, q₁⟩ := r₁
    rw [h₁] at h
    dsimp only at h
    cases h₂ : joinWith sep (g' :: gs) q₁ with
    | error => rw [h₂] at h; cases h
    | ok r₂ =>
      obtain ⟨s₂, a₂, q₂⟩ := r₂
      rw [h₂] at h
      cases h
      exact ⟨s₁, a₁, q₁, s₂, a₂, rfl, h₂, rfl, rfl⟩

theorem joinWith_aligned {sep : String} (hsep : isFieldMarker sep = false) :
    ∀ (gs : List (Nat → Compiled)) (p : Nat), (∀ g ∈ gs, ∀ q, AlignedFrom q (g q)) →
      AlignedFrom p (joinWith sep gs p)
  | [], p, _ => by intro s a q h; cases h; exact Aligned.nil p
  | [g], p, hg => hg g (List.mem_singleton_self g) p
  | g :: g' :: gs, p, hg => by
    intro s a q h
    obtain ⟨s₁, a₁, q₁, s₂, a₂, h₁, h₂, rfl, rfl⟩ := joinWith_cons_cons_ok h
    exact (hg g (List.mem_cons_self _ _) p s₁ a₁ q₁ h₁).append
      ((joinWith_aligned hsep (g' :: gs) q₁ (fun g hg' => hg g (List.mem_cons_of_mem _ hg'))
        s₂ a₂ _ h₂).cons_lit hsep) (by simp)

theorem enclose_aligned {pre : String} (hpre : isFieldMarker pre = false) {p : Nat} {r : Compiled}
    (hr : AlignedFrom p r) : AlignedFrom p (enclose pre r) := by
  intro s a q h
  cases r with
  | error => cases h
  | ok r =>
    obtain ⟨s', a', q'⟩ := r
    cases h
    exact ((hr _ _ _ rfl).append_lits [")"]).cons_lit hpre

theorem inArraySpec_aligned : InArrayAligned inArraySpec := by
  intro a p f hf
  refine enclose_aligned (by decide) (joinWith_aligned (by decide) _ p ?_)
  intro g hg q
  obtain ⟨v, -, rfl⟩ := List.mem_map.mp hg
  exact hf v q

theorem logicExprSpec_aligned : LogicExprAligned logicExprSpec := by
  intro op exprs p cb hcb
  have helems : ∀ g ∈ exprs.attach.map (fun e => logicElem exprs cb e.1 e.2), ∀ q,
      AlignedFrom q (g q) := by
    intro g hg q
    obtain ⟨⟨e, he⟩, -, rfl⟩ := List.mem_map.mp hg
    cases e with
    | document ps =>
      refine enclose_aligned (by decide) (joinWith_aligned (by decide) _ q ?_)
      intro g' hg' q'
      obtain ⟨kv, -, rfl⟩ := List.mem_map.mp hg'
      exact hcb _ _ _ q'
    | _ => intro s a q' h; cases h
  simp only [logicExprSpec]
  split
  · exact joinWith_aligned (by decide) _ p helems
  · split
    · exact joinWith_aligned (by decide) _ p helems
    · split
      · exact enclose_aligned (by decide) (joinWith_aligned (by decide) _ p helems)
      · intro s a q h; cases h

theorem joinWith_binds {α : Type} (sep : String) (g : α → Nat → Compiled) (B : α → List Arg)
    (hg : ∀ x q, Binds (B x) (g x q)) : ∀ (xs : List α) (p : Nat), Binds (xs.flatMap B) (joinWith sep (xs.map g) p)
  | [], p => by intro s a q h; cases h; rfl
  | [x], p => by simpa using hg x p
  | x :: x' :: xs, p => by
    intro s a q h
    obtain ⟨s₁, a₁, q₁, s₂, a₂, h₁, h₂, -, rfl⟩ := joinWith_cons_cons_ok h
    rw [hg x p _ _ _ h₁, joinWith_binds sep g B hg (x' :: xs) q₁ _ _ _ h₂]
    simp only [List.flatMap_cons]

theorem enclose_binds {pre : String} {B : List Arg} {r : Compiled} (hr : Binds B r) :
    Binds B (enclose pre r) := by
  intro s a q h
  cases r with
  | error => cases h
  | ok r =>
    obtain ⟨s', a', q'⟩ := r
    cases h
    exact hr _ _ _ rfl

theorem inArraySpec_binds : InArrayBinds inArraySpec :=
  fun a p f B hf => enclose_binds (joinWith_binds ", " f B hf a p)

theorem logicExprSpec_binds : LogicExprBinds logicExprSpec := by
  intro op exprs p cb B hcb
  have helems : ∀ (e : {e // e ∈ exprs}) q,
      Binds ((docPairs e.1).flatMap B) (logicElem exprs cb e.1 e.2 q) := by
    intro ⟨e, he⟩ q
    cases e with
    | document ps =>
      have h := joinWith_binds " AND " (fun kv => cb kv.1.1 kv.1.2 (sizeOf_lt_of_mem_document he kv.2))
        (fun kv => B kv.1) (fun kv q => hcb _ _ _ q) ps.attach q
      rw [flatMap_attach_val] at h
      exact enclose_binds h
    | _ => intro s a q h; cases h
  have hall : ∀ sep p, Binds ((pairsIn exprs).flatMap B)
      (joinWith sep (exprs.attach.map fun e => logicElem exprs cb e.1 e.2) p) := by
    intro sep p
    have h := joinWith_binds sep (fun e q => logicElem exprs cb e.1 e.2 q) _ helems exprs.attach p
    rwa [flatMap_attach_val exprs fun e => (docPairs e).flatMap B, ← List.flatMap_assoc] at h
  simp only [logicExprSpec]
  split
  · exact hall " AND " p
  · split
    · exact hall " OR " p
    · split
      · exact enclose_binds (hall " OR " p)
      · intro s a q h; cases h

unseal wherePair in
theorem where_placeholders_sample :
    LogicExprAligned specCommon.logicExpr ∧ InArrayAligned specCommon.inArray ∧
      LogicExprBinds specCommon.logicExpr ∧ InArrayBinds specCommon.inArray ∧
      ∃ sql args q, «where» specCommon ⟨[("a", .document [("$ne", .int32 1)]),
          ("$or", .array [.document [("b", .string "x")]])], by decide⟩ 0 = .ok (sql, args, q) ∧
        q = 0 + args.length ∧ params sql = List.range' 1 args.length ∧
        args = bindings ([("a", Value.document [("$ne", .int32 1)]),
          ("$or", .array [.document [("b", .string "x")]])].flatMap fun kv => comparisons kv.1 kv.2) := by
  obtain ⟨sql, args, q, hw⟩ : ∃ sql args q, «where» specCommon ⟨[("a", .document [("$ne", .int32 1)]),
      ("$or", .array [.document [("b", .string "x")]])], by decide⟩ 0 = .ok (sql, args, q) :=
    ⟨_, _, _, rfl⟩
  have h := where_placeholders specCommon logicExprSpec_aligned inArraySpec_aligned
    logicExprSpec_binds inArraySpec_binds _ 0 hw
  exact ⟨logicExprSpec_aligned, inArraySpec_aligned, logicExprSpec_binds, inArraySpec_binds,
    sql, args, q, hw, h.1, h.2.1, h.2.2.2⟩

end HanaCompat.Jsonb1
