import HanaCompat.Jsonb1.Meaning

namespace HanaCompat.Jsonb1

/-- The operator document `{$regex: r}`, with `$options: o` before or after it when `o` is
given. -/
def regexOperators (r : Value) (o : Option Value) (optionsFirst : Bool) : List (String × Value) :=
  match o with
  | none => [("$regex", r)]
  | some o => if optionsFirst then [("$options", o), ("$regex", r)] else [("$regex", r), ("$options", o)]

theorem lookup_regexOperators (r : Value) (o : Option Value) (optionsFirst : Bool) :
    (regexOperators r o optionsFirst).lookup "$options" = o := by
  cases o <;> (try cases optionsFirst) <;> rfl

theorem fieldExpr_regexOperators (inArray : InArray) (field : String) (r : Value)
    (o : Option Value) (optionsFirst : Bool) (p : Nat) :
    fieldExpr inArray field (regexOperators r o optionsFirst) p =
      fieldOp inArray field (regexOperators r o optionsFirst) "$regex" r p := by
  rcases h : fieldOp inArray field (regexOperators r o optionsFirst) "$regex" r p with e | ⟨s, a, q⟩ <;>
    cases o <;> (try cases optionsFirst) <;>
    simp_all [regexOperators, fieldExpr, fieldExprLoop, andSep]

theorem regexOptions_of_forall : ∀ {cs : List Char}, (∀ c ∈ cs, c = 'i') →
    regexOptions cs = (String.mk cs, false)
  | [], _ => rfl
  | c :: cs, h => by
    obtain rfl := h c (.head _)
    simp only [regexOptions, regexOptions_of_forall fun d hd => h d (.tail _ hd), if_true]
    rfl

theorem regexValue_of_effectiveRegex {filterMap : List (String × Value)} {r : Value}
    {pattern opts : String} (he : effectiveRegex (filterMap.lookup "$options") r = some (pattern, opts)) :
    ∃ options, optionsOf filterMap = .ok options ∧ regexValue options r = .ok (.regex pattern opts) := by
  unfold optionsOf
  cases hl : filterMap.lookup "$options" with
  | none =>
    rw [hl] at he
    cases r <;> simp only [effectiveRegex, reduceCtorEq, Option.some.injEq, Prod.mk.injEq] at he
    · obtain ⟨rfl, rfl⟩ := he
      exact ⟨"", rfl, rfl⟩
    · obtain ⟨rfl, rfl⟩ := he
      exact ⟨"", rfl, by simp [regexValue]⟩
  | some v =>
    rw [hl] at he
    cases r <;> cases v <;> simp only [effectiveRegex, reduceCtorEq] at he
    · simp only [Option.some.injEq, Prod.mk.injEq] at he
      obtain ⟨rfl, rfl⟩ := he
      exact ⟨_, rfl, rfl⟩
    · rename_i pattern' o₁ os
      refine ⟨os, rfl, ?_⟩
      by_cases h₀ : os = "" <;> by_cases h₁ : o₁ = "" <;> simp_all [regexValue]

theorem fieldExpr_regex_ok {inArray : InArray} {field : String} {r : Value} {o : Option Value}
    {optionsFirst : Bool} {p : Nat} {s : Sql} {a : List Arg} {q : Nat}
    (h : fieldExpr inArray field (regexOperators r o optionsFirst) p = .ok (s, a, q)) :
    ∃ pattern opts, effectiveRegex o r = some (pattern, opts) ∧ (∀ c ∈ opts.toList, c = 'i') ∧
      a = [.field field, .string (if opts ≠ "" then "(?" ++ opts ++ ")" ++ pattern else pattern)] := by
  rw [fieldExpr_regexOperators, fieldOp_regex] at h
  rcases ho : optionsOf (regexOperators r o optionsFirst) with e | options
  · simp [ho] at h
  rcases hv : regexValue options r with e | v
  · simp [ho, hv] at h
  obtain ⟨pattern, opts, rfl, he⟩ := effectiveRegex_of_regexValue ho hv
  rw [lookup_regexOperators] at he
  simp only [ho, hv, scalar] at h
  rcases hr : regexOptions opts.toList with ⟨options', _ | _⟩ <;> simp only [hr, operand] at h
  · obtain ⟨hs, hi⟩ := regexOptions_ok hr
    obtain rfl : options' = opts := String.ext hs
    simp only [Except.ok.injEq, Prod.mk.injEq] at h
    exact ⟨pattern, options', he, hi, by rw [← h.2.1]⟩
  · cases h

theorem fieldExpr_regex_of_effective (inArray : InArray) (field : String) {r : Value}
    {o : Option Value} (optionsFirst : Bool) (p : Nat) {pattern opts : String}
    (he : effectiveRegex o r = some (pattern, opts)) (hi : ∀ c ∈ opts.toList, c = 'i') :
    ∃ s q, fieldExpr inArray field (regexOperators r o optionsFirst) p =
      .ok (s, [.field field, .string (if opts ≠ "" then "(?" ++ opts ++ ")" ++ pattern else pattern)], q) := by
  rw [← lookup_regexOperators r o optionsFirst] at he
  obtain ⟨options, ho, hv⟩ := regexValue_of_effectiveRegex he
  rw [fieldExpr_regexOperators, fieldOp_regex]
  have hr := regexOptions_of_forall hi
  simp only [ho, hv, scalar, hr, operand]
  exact ⟨_, _, rfl⟩

theorem regexValue_of_not_pattern {r : Value} (hs : r.isString = false)
    (hr : ∀ pattern o₁, r ≠ .regex pattern o₁) (options : String) :
    regexValue options r = .error (.error (.command .badValue "$regex has to be a string")) := by
  cases r <;> simp_all [regexValue, Value.isString]

theorem optionsOf_eq_error {filterMap : List (String × Value)} {e : Fault}
    (h : optionsOf filterMap = .error e) :
    e = .error (.command .badValue "$options has to be a string") := by
  unfold optionsOf at h
  split at h <;> cases h
  rfl

theorem optionsOf_of_not_string {filterMap : List (String × Value)} {v : Value}
    (hl : filterMap.lookup "$options" = some v) (hv : v.isString = false) :
    optionsOf filterMap = .error (.error (.command .badValue "$options has to be a string")) := by
  unfold optionsOf
  rw [hl]
  cases v <;> simp_all [Value.isString]

/-- `{$regex: r, $options: o}` in either order, `o` optional. `fieldExpr` succeeds exactly
when MongoDB reads the document as a pattern and options (`o` absent or a string, `r` a
string or a regex, not both carrying options) and the options in effect are all `i`; the
value argument is then the pattern, behind `(?options)` when there are options. Options on
both sides fail with `RegexOptions`; an `$options` that is not a string, or a `$regex` that
is neither a string nor a regex, with `BadValue`. -/
theorem fieldExpr_regex (inArray : InArray) (field : String) (r : Value) (o : Option Value)
    (optionsFirst : Bool) (p : Nat) :
    ((∃ s a q, fieldExpr inArray field (regexOperators r o optionsFirst) p = .ok (s, a, q)) ↔
        ∃ pattern opts, effectiveRegex o r = some (pattern, opts) ∧ ∀ c ∈ opts.toList, c = 'i') ∧
      (∀ s a q pattern opts,
        fieldExpr inArray field (regexOperators r o optionsFirst) p = .ok (s, a, q) →
        effectiveRegex o r = some (pattern, opts) →
        a = [.field field, .string (if opts ≠ "" then "(?" ++ opts ++ ")" ++ pattern else pattern)]) ∧
      (∀ os pattern o₁, o = some (.string os) → r = .regex pattern o₁ → os ≠ "" → o₁ ≠ "" →
        fieldExpr inArray field (regexOperators r o optionsFirst) p =
          .error (.error (.command .regexOptions "options set in both $regex and $options"))) ∧
      ((∃ v, o = some v ∧ v.isString = false) ∨
          (r.isString = false ∧ ∀ pattern o₁, r ≠ .regex pattern o₁) →
        ∃ msg, fieldExpr inArray field (regexOperators r o optionsFirst) p =
          .error (.error (.command .badValue msg))) := by
  refine ⟨⟨fun ⟨s, a, q, h⟩ => ?_, fun ⟨pattern, opts, he, hi⟩ => ?_⟩, ?_, ?_, ?_⟩
  · obtain ⟨pattern, opts, he, hi, -⟩ := fieldExpr_regex_ok h
    exact ⟨pattern, opts, he, hi⟩
  · obtain ⟨s, q, h⟩ := fieldExpr_regex_of_effective inArray field optionsFirst p he hi
    exact ⟨s, _, q, h⟩
  · intro s a q pattern opts h he
    obtain ⟨pattern', opts', he', -, rfl⟩ := fieldExpr_regex_ok h
    obtain ⟨rfl, rfl⟩ : pattern = pattern' ∧ opts = opts' := by simpa [he] using he'
    rfl
  · rintro os pattern o₁ rfl rfl hos ho₁
    rw [fieldExpr_regexOperators, fieldOp_regex]
    simp [optionsOf, lookup_regexOperators, regexValue, hos, ho₁]
  · rw [fieldExpr_regexOperators, fieldOp_regex]
    rintro (⟨v, rfl, hv⟩ | ⟨hs, hr⟩)
    · exact ⟨_, by rw [optionsOf_of_not_string (lookup_regexOperators r _ optionsFirst) hv]⟩
    · rcases ho : optionsOf (regexOperators r o optionsFirst) with e | options
      · exact ⟨_, by rw [optionsOf_eq_error ho]⟩
      · exact ⟨"$regex has to be a string", by simp only [regexValue_of_not_pattern hs hr]⟩

theorem where_of_wherePair_error (c : Common) {key : String} {value : Value}
    {rest : List (String × Value)} (h : (((key, value) :: rest).map Prod.fst).Nodup) (p : Nat)
    {e : Fault} (he : wherePair c key value p = .error e) :
    «where» c ⟨(key, value) :: rest, h⟩ p = .error (e.wrap "where") := by
  simp only [«where», List.isEmpty_cons, whereLoop, he]
  rfl

theorem wherePair_dollar_panics (c : Common) (key : String) (hk : hasPrefix key "$" = true)
    (value : Value) (hv : ∀ exprs, value ≠ .array exprs) (p : Nat) :
    wherePair c key value p = .error (assertionPanic value "*types.Array") := by
  unfold wherePair
  rw [if_pos hk]
  split
  · exact absurd rfl (hv _)
  · rfl

theorem fieldExprLoop_not_panics (inArray : InArray) (field : String)
    (filterMap rest : List (String × Value)) (v : Value) (hv : ∀ inner, v ≠ .document inner)
    (sql : Sql) (args : List Arg) (p : Nat) :
    fieldExprLoop inArray field filterMap (("$not", v) :: rest) sql args p =
      .error (assertionPanic v "types.Document") := by
  have hn : fieldExprNot inArray field v p = .error (assertionPanic v "types.Document") := by
    cases v <;> first | exact absurd rfl (hv _) | rfl
  rw [fieldExprLoop, if_neg (by decide), if_pos rfl, hn]
  rfl

theorem wherePair_field_document (c : Common) (key : String) (hk : hasPrefix key "$" = false)
    (expr : List (String × Value)) (p : Nat) :
    wherePair c key (.document expr) p = (fieldExpr c.inArray key expr p).mapError (Fault.wrap "wherePair") := by
  unfold wherePair
  rw [if_neg (by simp [hk])]

unseal wherePair in
/-- Filters outside the compiled grammar that `where` does not answer with `BadValue`, for
any `common.LogicExpr` and `common.InArray` and any placeholder: `$not` over a number,
`$in` over a number and `$or` over a number panic on Go's type assertions, and an unknown
operator returns an untyped error. -/
theorem where_outside_grammar (c : Common) (p : Nat) :
    «where» c ⟨[("a", .document [("$not", .int32 1)])], by decide⟩ p =
        .error (.panic "interface conversion: interface \x7b\x7d is int32, not types.Document") ∧
      «where» c ⟨[("a", .document [("$in", .int32 1)])], by decide⟩ p =
        .error (.panic "interface conversion: interface \x7b\x7d is int32, not *types.Array") ∧
      «where» c ⟨[("$or", .int32 1)], by decide⟩ p =
        .error (.panic "interface conversion: interface \x7b\x7d is int32, not *types.Array") ∧
      «where» c ⟨[("a", .document [("$foo", .int32 1)])], by decide⟩ p =
        .error (.error (.wrap "where" (.wrap "wherePair" (.wrap "fieldExpr"
          (.lazy "unhandled \x7b%q: %v\x7d"))))) := by
  refine ⟨?_, rfl, ?_, rfl⟩
  · rw [where_of_wherePair_error c _ p (by rw [wherePair_field_document c "a" rfl,
      fieldExpr, fieldExprLoop_not_panics _ _ _ _ (.int32 1) nofun]; rfl)]
    rfl
  · rw [where_of_wherePair_error c _ p (wherePair_dollar_panics c "$or" rfl (.int32 1) nofun p)]
    rfl

theorem fieldExprLoop_options (inArray : InArray) (field : String) (filterMap : List (String × Value)) :
    ∀ (ops : List (String × Value)), (∀ kv ∈ ops, kv.1 = "$options") →
      ∀ sql args p, fieldExprLoop inArray field filterMap ops sql args p = .ok (sql, args, p)
  | [], _, _, _, _ => by rw [fieldExprLoop]
  | (op, v) :: ops, h, sql, args, p => by
    obtain rfl : op = "$options" := h _ (.head _)
    rw [fieldExprLoop, if_pos rfl]
    exact fieldExprLoop_options inArray field filterMap ops (fun kv hkv => h kv (.tail _ hkv)) sql args p

theorem where_options_only (c : Common) (key : String) (hk : hasPrefix key "$" = false)
    (ops : List (String × Value)) (hops : ∀ kv ∈ ops, kv.1 = "$options") (p : Nat) :
    «where» c ⟨[(key, .document ops)], List.nodup_singleton _⟩ p =
        .ok ([.lit " WHERE", .lit " (", .lit ")"], [], p) ∧
      «where» c ⟨[(key, .document [("$not", .document ops)])], List.nodup_singleton _⟩ p =
        .ok ([.lit " WHERE", .lit " (", .lit "NOT(", .lit ")", .lit ")"], [], p) := by
  have hloop := fieldExprLoop_options c.inArray key ops ops hops [] [] p
  constructor
  · simp only [«where», List.isEmpty_cons, whereLoop, wherePair_field_document c key hk, fieldExpr, hloop]
    rfl
  · simp only [«where», List.isEmpty_cons, whereLoop, wherePair_field_document c key hk, fieldExpr]
    rw [fieldExprLoop, if_neg (by decide), if_pos rfl, fieldExprNot, hloop]
    simp only [fieldExprLoop_options c.inArray key _ [] nofun]
    rfl

/-- `{a: {}}` and `{a: {$not: {}}}` compile, for any helpers and placeholder, to
` WHERE ()` and ` WHERE (NOT())`, which are not WHERE clauses of conditions: the parser
of the clause's grammar rejects both texts with any fuel. -/
theorem where_empty_condition (c : Common) (p fuel : Nat) :
    «where» c ⟨[("a", .document [])], by decide⟩ p =
        .ok ([.lit " WHERE", .lit " (", .lit ")"], [], p) ∧
      «where» c ⟨[("a", .document [("$not", .document [])])], by decide⟩ p =
        .ok ([.lit " WHERE", .lit " (", .lit "NOT(", .lit ")", .lit ")"], [], p) ∧
      parseWhere fuel (sqlToks [.lit " WHERE", .lit " (", .lit ")"]) p [] = none ∧
      parseWhere fuel (sqlToks [.lit " WHERE", .lit " (", .lit "NOT(", .lit ")", .lit ")"]) p [] =
        none := by
  obtain ⟨h₁, h₂⟩ := where_options_only c "a" rfl [] nofun p
  refine ⟨h₁, h₂, ?_, ?_⟩
  · rcases fuel with _ | _ | fuel <;> rfl
  · rcases fuel with _ | _ | _ | _ | fuel <;> rfl

end HanaCompat.Jsonb1
