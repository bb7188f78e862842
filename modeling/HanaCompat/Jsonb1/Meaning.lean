import HanaCompat.Jsonb1.Sql

namespace HanaCompat.Jsonb1

/-- MongoDB's type brackets: values of different brackets never compare. -/
def bracket : Value → Nat
  | .null => 0
  | .double _ | .int32 _ | .int64 _ => 1
  | .string _ => 2
  | .document _ => 3
  | .array _ => 4
  | .objectID _ => 5
  | .bool _ => 6
  | .datetime _ => 7
  | .regex _ _ => 8

/-- MongoDB's order on two values of one bracket, and its match of a subject against a
pattern with options. -/
structure Mongo where
  compare : Value → Value → Ordering
  regexMatch : String → String → String → Bool

/-- The pattern and options that `$regex: v` stands for beside the operator document's
`$options`; none when MongoDB rejects them. -/
def effectiveRegex (options : Option Value) : Value → Option (String × String)
  | .string s =>
    match options with
    | none => some (s, "")
    | some (.string o) => some (s, o)
    | some _ => none
  | .regex p o₁ =>
    match options with
    | none => some (p, o₁)
    | some (.string o) => if o = "" then some (p, o₁) else if o₁ = "" then some (p, o) else none
    | some _ => none
  | _ => none

namespace Mongo

variable (M : Mongo)

def cmpMatch (op : CmpOp) : Option Value → Value → Bool
  | some x, v => bracket x == bracket v && op.holds (M.compare x v)
  | none, _ => false

def regexOn (pattern options : String) : Option Value → Bool
  | some (.string s) => M.regexMatch pattern options s
  | _ => false

def opMatch (x : Option Value) (ops : List (String × Value)) (op : String) (v : Value) : Bool :=
  match op with
  | "$eq" => M.cmpMatch .eq x v
  | "$ne" => !M.cmpMatch .eq x v
  | "$lt" => M.cmpMatch .lt x v
  | "$lte" => M.cmpMatch .lte x v
  | "$gt" => M.cmpMatch .gt x v
  | "$gte" => M.cmpMatch .gte x v
  | "$regex" =>
    match effectiveRegex (ops.lookup "$options") v with
    | some (p, o) => M.regexOn p o x
    | none => false
  | _ => false

mutual

def opsMatch (x : Option Value) (ops : List (String × Value)) : List (String × Value) → Bool
  | [] => true
  | (op, v) :: rest =>
    (if op = "$options" then true else if op = "$not" then notMatch x v else M.opMatch x ops op v) &&
      opsMatch x ops rest

def notMatch (x : Option Value) : Value → Bool
  | .document inner => !opsMatch x inner inner
  | _ => false

end

def pairMatch (x : Option Value) : Value → Bool
  | .document ops => M.opsMatch x ops ops
  | .regex p o => M.regexOn p o x
  | v => M.cmpMatch .eq x v

/-- Whether `d` matches the filter `F`: every pair holds. -/
def filterMatch (F d : Document) : Bool := F.pairs.all fun kv => M.pairMatch (d.get kv.1) kv.2

end Mongo

/-- The engine and MongoDB agree where the compiled conditions need them to: on the
order within a bracket, on the text of a string, and on matching with the options that
`scalar` writes into the pattern. -/
structure Agrees (B : Backend) (M : Mongo) : Prop where
  compare_eq : ∀ x v, bracket x = bracket v → B.compare x v = M.compare x v
  text_string : ∀ s, B.text (.string s) = s
  regexMatch_eq : ∀ pattern options s, (∀ c ∈ options.toList, c = 'i') →
    B.regexMatch (if options ≠ "" then "(?" ++ options ++ ")" ++ pattern else pattern) s =
      M.regexMatch pattern options s

def scalarOperand : Value → Bool
  | .int32 _ | .string _ | .objectID _ => true
  | _ => false

def cmpOpOf : String → Option CmpOp
  | "$eq" => some .eq
  | "$ne" => some .ne
  | "$lt" => some .lt
  | "$lte" => some .lte
  | "$gt" => some .gt
  | "$gte" => some .gte
  | _ => none

def hasOperator (ops : List (String × Value)) : Bool := ops.any (·.1 != "$options")

mutual

/-- Operator documents of the simulated fragment: comparisons with an int32, string or
ObjectID, `$regex` and `$options`, and `$not` over an operator document of these forms
that has an operator besides `$options`. -/
def opsInFragment : List (String × Value) → Bool
  | [] => true
  | (op, v) :: rest =>
    (if op = "$not" then notInFragment v
     else if op = "$regex" ∨ op = "$options" then true
     else (cmpOpOf op).isSome && scalarOperand v) && opsInFragment rest

def notInFragment : Value → Bool
  | .document inner => hasOperator inner && opsInFragment inner
  | _ => false

end

def pairInFragment : String × Value → Bool
  | (key, value) => !hasPrefix key "$" &&
    match value with
    | .document ops => hasOperator ops && opsInFragment ops
    | .regex .. => true
    | v => scalarOperand v

def inFragment (F : Document) : Bool := F.pairs.all pairInFragment

mutual

def opsComparable (x : Value) : List (String × Value) → Bool
  | [] => true
  | (op, v) :: rest =>
    (if op = "$not" then notComparable x v
     else if op = "$options" then true
     else if op = "$regex" then x.isString
     else bracket x == bracket v) && opsComparable x rest

def notComparable (x : Value) : Value → Bool
  | .document inner => opsComparable x inner
  | _ => true

end

def pairComparable (d : Document) : String × Value → Bool
  | (key, value) =>
    match d.get key with
    | none => false
    | some x =>
      match value with
      | .document ops => opsComparable x ops
      | .regex .. => x.isString
      | v => bracket x == bracket v

/-- `d` has every field the filter names, each comparable with what the filter compares
it with. -/
def comparableWith (F d : Document) : Bool := F.pairs.all (pairComparable d)

/-- `(sql, args)`, with `q` the counter after them, are the text and arguments of `c`
from `p₀`; no condition is no text at all. -/
def Renders (sql : Sql) (args : List Arg) (q p₀ : Nat) : Option Conj → Prop
  | none => sql = [] ∧ args = [] ∧ q = p₀
  | some c => sqlToks sql = (c.render p₀).1 ∧ args = (c.render p₀).2.1 ∧ q = (c.render p₀).2.2

def Conj.snocOpt : Option Conj → Atom → Conj
  | none, b => .one b
  | some c, b => c.snoc b

def evalOpt (B : Backend) (d : Document) : Option Conj → Option Bool
  | none => some true
  | some c => c.eval B d

theorem Conj.render_ne_nil (c : Conj) (p : Nat) : (c.render p).1 ≠ [] := by
  intro h
  have := Conj.size_le_length c p
  rw [h] at this
  cases c <;> simp only [Conj.size, List.length_nil] at this <;> omega

theorem Renders.snoc {sql s : Sql} {args a : List Arg} {p₀ q q' : Nat} {oc : Option Conj} {b : Atom}
    (h : Renders sql args q p₀ oc) (hb : Renders s a q' q (some (.one b))) :
    Renders (andSep sql ++ s) (args ++ a) q' p₀ (some (Conj.snocOpt oc b)) := by
  obtain ⟨hs, rfl, rfl⟩ := hb
  cases oc with
  | none =>
    obtain ⟨rfl, rfl, rfl⟩ := h
    exact ⟨hs, rfl, rfl⟩
  | some c =>
    obtain ⟨h₁, rfl, rfl⟩ := h
    have hne : sql ≠ [] := fun he => Conj.render_ne_nil c p₀ (by rw [← h₁, he, sqlToks_nil])
    have hand : lits " AND " = lits " AND" ++ lits " " := rfl
    simp only [Renders, Conj.snocOpt, Conj.render_snoc, andSep, hne, if_false, sqlToks_append,
      h₁, hs, hand, Conj.render, List.append_assoc, sqlToks_cons, Piece.toks, sqlToks_nil,
      List.append_nil, and_self]

theorem and3_true_left (y : Option Bool) : and3 (some true) y = y := by
  rcases y with _ | _ | _ <;> rfl

theorem evalOpt_snocOpt (B : Backend) (d : Document) (oc : Option Conj) (b : Atom) :
    evalOpt B d (some (Conj.snocOpt oc b)) = and3 (evalOpt B d oc) (b.eval B d) := by
  cases oc with
  | none => exact (and3_true_left _).symm
  | some c => exact Conj.eval_snoc B d b c

theorem scalar_of_scalarOperand {v : Value} (hv : scalarOperand v = true) (p : Nat) :
    ∃ (rhs : Rhs) (arg : Arg) (s : Sql), scalar v p = .ok (s, [arg], p + 1) ∧
      sqlToks s = rhs.toks (p + 1) ∧
      rhs.value arg = some v := by
  cases v with
  | int32 n => exact ⟨.int4, _, _, rfl, by simp [Rhs.toks, Piece.toks], rfl⟩
  | string str => exact ⟨.text, _, _, rfl, by simp [Rhs.toks, Piece.toks], rfl⟩
  | objectID o => exact ⟨.bare, _, _, rfl, rfl, rfl⟩
  | _ => cases hv

theorem regexOptions_ok : ∀ {cs : List Char} {o : String}, regexOptions cs = (o, false) →
    o.toList = cs ∧ ∀ c ∈ cs, c = 'i'
  | [], o, h => by
    simp only [regexOptions, Prod.mk.injEq] at h
    simp [← h.1]
  | c :: cs, o, h => by
    rcases hr : regexOptions cs with ⟨o', bad⟩
    simp only [regexOptions, hr] at h
    by_cases hc : c = 'i'
    · simp only [hc, if_true, Prod.mk.injEq] at h
      obtain ⟨rfl, rfl⟩ := h
      obtain ⟨ho, hall⟩ := regexOptions_ok hr
      exact ⟨by rw [hc, ← ho]; rfl, by simpa [hc] using hall⟩
    · simp [hc] at h

section Agreement

variable {B : Backend} {M : Mongo}

theorem scalar_regex (hA : Agrees B M) {pattern opts : String} {p : Nat} {s : Sql}
    {a : List Arg} {q : Nat} (h : scalar (.regex pattern opts) p = .ok (s, a, q)) :
    ∃ pat, s = [.param (p + 1)] ∧ a = [.string pat] ∧ q = p + 1 ∧
      ∀ t, B.regexMatch pat t = M.regexMatch pattern opts t := by
  simp only [scalar] at h
  rcases ho : regexOptions opts.toList with ⟨options, _ | _⟩ <;> rw [ho] at h
  · obtain ⟨hs, hi⟩ := regexOptions_ok ho
    obtain rfl : options = opts := String.ext hs
    cases h
    exact ⟨_, rfl, rfl, rfl, fun t => hA.regexMatch_eq pattern options t hi⟩
  · cases h

theorem effectiveRegex_of_regexValue {filterMap : List (String × Value)} {options : String}
    {v r : Value} (ho : optionsOf filterMap = .ok options) (hr : regexValue options v = .ok r) :
    ∃ pattern opts, r = .regex pattern opts ∧
      effectiveRegex (filterMap.lookup "$options") v = some (pattern, opts) := by
  unfold optionsOf at ho
  cases hl : filterMap.lookup "$options" with
  | none =>
    rw [hl] at ho
    cases ho
    cases v <;> simp [regexValue] at hr <;> simp [effectiveRegex, ← hr]
  | some o =>
    rw [hl] at ho
    cases o <;> try cases ho
    cases v <;> simp only [regexValue, reduceCtorEq] at hr
    · cases hr; simp [effectiveRegex]
    · rename_i pattern o₁
      by_cases h₀ : options = "" <;> by_cases h₁ : o₁ = "" <;> simp [h₀, h₁] at hr <;>
        simp [effectiveRegex, h₀, h₁, ← hr]

theorem cmp_eval (hA : Agrees B M) {d : Document} {field : String} {x v : Value}
    (hx : d.get field = some x) (hb : bracket x = bracket v) (op : CmpOp) {rhs : Rhs} {arg : Arg}
    (hv : rhs.value arg = some v) :
    (Atom.cmp (.field field) op rhs arg).eval B d = some (op.holds (M.compare x v)) := by
  simp [Atom.eval, hx, hv, hA.compare_eq x v hb]

end Agreement

theorem fieldOp_of_cmpOpOf {op : String} {cop : CmpOp} (h : cmpOpOf op = some cop)
    (inArray : InArray) (field : String) (filterMap : List (String × Value)) (value : Value)
    (p : Nat) : fieldOp inArray field filterMap op value p =
      operand [.lit "_jsonb->", .param (p + 1), .lit (" " ++ cop.sql)] field (scalar value (p + 1)) := by
  unfold cmpOpOf at h
  split at h <;> cases h <;> rfl

theorem Mongo.opMatch_of_cmpOpOf (M : Mongo) {op : String} {cop : CmpOp} (h : cmpOpOf op = some cop)
    {x v : Value} (hb : bracket x = bracket v) (ops : List (String × Value)) :
    M.opMatch (some x) ops op v = cop.holds (M.compare x v) := by
  unfold cmpOpOf at h
  split at h <;> cases h <;> simp [Mongo.opMatch, Mongo.cmpMatch, hb, CmpOp.holds, bne]

theorem fieldOp_regex (inArray : InArray) (field : String) (filterMap : List (String × Value))
    (value : Value) (p : Nat) : fieldOp inArray field filterMap "$regex" value p =
      match optionsOf filterMap with
      | .error e => .error e
      | .ok options =>
        match regexValue options value with
        | .error e => .error e
        | .ok v => operand [.lit "_jsonb->>", .param (p + 1), .lit " ~"] field (scalar v (p + 1)) :=
  rfl

section Agreement

variable {B : Backend} {M : Mongo}

theorem fieldOp_meaning (hA : Agrees B M) {d : Document} {field : String} {x : Value}
    (hx : d.get field = some x) {inArray : InArray} {filterMap : List (String × Value)}
    {op : String} {value : Value} {p : Nat} {s : Sql} {a : List Arg} {q : Nat}
    (hf : (if op = "$regex" then true else (cmpOpOf op).isSome && scalarOperand value) = true)
    (hc : (if op = "$regex" then x.isString else bracket x == bracket value) = true)
    (h : fieldOp inArray field filterMap op value p = .ok (s, a, q)) :
    ∃ b, Renders s a q p (some (.one b)) ∧ b.eval B d = some (M.opMatch (some x) filterMap op value) := by
  by_cases hr : op = "$regex"
  · subst hr
    obtain ⟨str, rfl⟩ : ∃ str, x = .string str := by
      cases x <;> simp [Value.isString] at hc ⊢
    rw [fieldOp_regex] at h
    rcases ho : optionsOf filterMap with e | options
    · simp [ho] at h
    rcases hv : regexValue options value with e | v
    · simp [ho, hv] at h
    obtain ⟨pattern, opts, rfl, he⟩ := effectiveRegex_of_regexValue ho hv
    rcases hs : scalar (.regex pattern opts) (p + 1) with e | ⟨s', a', q'⟩
    · simp [ho, hv, hs, operand] at h
    simp only [ho, hv, hs, operand] at h
    obtain ⟨pat, rfl, rfl, rfl, hm⟩ := scalar_regex hA hs
    cases h
    have hsep : lits " ~ " = lits " ~" ++ lits " " := rfl
    refine ⟨.regex (.field field) (.string pat), ?_, ?_⟩
    · simp [Renders, Conj.render, Atom.render, Piece.toks, hsep]
    · simp [Atom.eval, hx, hA.text_string, Mongo.opMatch, he, Mongo.regexOn, hm]
  · simp only [hr, if_false, Bool.and_eq_true, Option.isSome_iff_exists, beq_iff_eq] at hf hc
    obtain ⟨⟨cop, hcop⟩, hv⟩ := hf
    rw [fieldOp_of_cmpOpOf hcop] at h
    obtain ⟨rhs, arg, s', hs, hts, hval⟩ := scalar_of_scalarOperand hv (p + 1)
    rw [hs] at h
    cases h
    refine ⟨.cmp (.field field) cop rhs arg, ?_, ?_⟩
    · simp [Renders, Conj.render, Atom.render, Piece.toks, hts]
    · rw [M.opMatch_of_cmpOpOf hcop hc]
      exact cmp_eval hA hx hc cop hval

mutual

theorem fieldExprLoop_meaning (hA : Agrees B M) {d : Document} {field : String} {x : Value}
    (hx : d.get field = some x) (inArray : InArray) (filterMap : List (String × Value)) {p₀ : Nat} :
    ∀ (ops : List (String × Value)) (sql : Sql) (args : List Arg) (p : Nat) (oc : Option Conj)
      (e : Bool) (sql' : Sql) (args' : List Arg) (q : Nat),
      opsInFragment ops = true → opsComparable x ops = true →
      Renders sql args p p₀ oc → evalOpt B d oc = some e →
      fieldExprLoop inArray field filterMap ops sql args p = .ok (sql', args', q) →
      ∃ oc', Renders sql' args' q p₀ oc' ∧
        evalOpt B d oc' = some (e && M.opsMatch (some x) filterMap ops) ∧
        (oc' = none → oc = none ∧ hasOperator ops = false)
  | [], sql, args, p, oc, e, sql', args', q, _, _, hr, he, h => by
    cases h
    exact ⟨oc, hr, by simp [he, Mongo.opsMatch], fun h => ⟨h, rfl⟩⟩
  | (op, value) :: rest, sql, args, p, oc, e, sql', args', q, hf, hc, hr, he, h => by
    simp only [opsInFragment, opsComparable, Bool.and_eq_true] at hf hc
    by_cases hopt : op = "$options"
    · -- `$options` is read by `$regex` and skipped by the loop
      subst hopt
      simp only [fieldExprLoop, if_true] at h
      obtain ⟨oc', hr', he', hn⟩ :=
        fieldExprLoop_meaning hA hx inArray filterMap rest sql args p oc e sql' args' q hf.2 hc.2 hr he h
      exact ⟨oc', hr', by simpa [Mongo.opsMatch] using he', by simpa [hasOperator] using hn⟩
    have hstep : ∀ b v s a q₁, Renders s a q₁ p (some (.one b)) → b.eval B d = some v →
        fieldExprLoop inArray field filterMap rest (andSep sql ++ s) (args ++ a) q₁ = .ok (sql', args', q) →
        ∃ oc', Renders sql' args' q p₀ oc' ∧
          evalOpt B d oc' = some (e && v && M.opsMatch (some x) filterMap rest) ∧
          (oc' = none → oc = none ∧ hasOperator ((op, value) :: rest) = false) := by
      intro b v s a q₁ hb hbe hl
      have he₁ : evalOpt B d (some (Conj.snocOpt oc b)) = some (e && v) := by
        rw [evalOpt_snocOpt, he, hbe, and3_some]
      obtain ⟨oc', hr', he', hn⟩ :=
        fieldExprLoop_meaning hA hx inArray filterMap rest _ _ _ _ _ sql' args' q hf.2 hc.2
          (hr.snoc hb) he₁ hl
      exact ⟨oc', hr', he', fun h' => nomatch (hn h').1⟩
    by_cases hnot : op = "$not"
    · -- `$not` wraps the atoms of its operator document in `NOT(...)`
      subst hnot
      simp only [fieldExprLoop, if_true, if_false, hopt] at h
      simp only [if_true] at hf hc
      rcases hv : fieldExprNot inArray field value p with err | ⟨argSql, arg, q₁⟩
      · simp [hv] at h
      simp only [hv, List.append_assoc] at h
      obtain ⟨c, ⟨hs, rfl, rfl⟩, hce⟩ := fieldExprNot_meaning hA hx inArray value p argSql arg q₁ hf.1 hc.1 hv
      obtain ⟨oc', hr', he', hn⟩ := hstep (.not c) (M.notMatch (some x) value)
        (.lit "NOT(" :: argSql ++ [.lit ")"]) _ _
        ⟨by simp [Conj.render, Atom.render, hs, Piece.toks], rfl, rfl⟩ (by simp [Atom.eval, hce]) h
      exact ⟨oc', hr', by simpa [Mongo.opsMatch, Bool.and_assoc] using he', hn⟩
    · -- every other operator is one atom
      simp only [fieldExprLoop, hopt, hnot, if_false] at h
      simp only [hnot, hopt, or_false, if_false] at hf hc
      rcases hv : fieldOp inArray field filterMap op value p with err | ⟨s, a, q₁⟩
      · simp [hv] at h
      simp only [hv] at h
      obtain ⟨b, hb, hbe⟩ := fieldOp_meaning hA hx hf.1 hc.1 hv
      obtain ⟨oc', hr', he', hn⟩ := hstep b _ _ _ _ hb hbe h
      exact ⟨oc', hr', by simpa [Mongo.opsMatch, hopt, hnot, Bool.and_assoc] using he', hn⟩

theorem fieldExprNot_meaning (hA : Agrees B M) {d : Document} {field : String} {x : Value}
    (hx : d.get field = some x) (inArray : InArray) :
    ∀ (value : Value) (p : Nat) (s : Sql) (a : List Arg) (q : Nat),
      notInFragment value = true → notComparable x value = true →
      fieldExprNot inArray field value p = .ok (s, a, q) →
      ∃ c, Renders s a q p (some c) ∧ c.eval B d = some (!M.notMatch (some x) value)
  | .document inner, p, s, a, q, hf, hc, h => by
    simp only [notInFragment, Bool.and_eq_true] at hf
    obtain ⟨oc', hr, he, hn⟩ := fieldExprLoop_meaning hA hx inArray inner inner [] [] p none true s a q
      hf.2 hc ⟨rfl, rfl, rfl⟩ rfl h
    cases oc' with
    | none => exact absurd (hn rfl).2 (by simp [hf.1])
    | some c => exact ⟨c, hr, by simpa [evalOpt, Mongo.notMatch] using he⟩
  | .null, _, _, _, _, hf, _, _ | .double _, _, _, _, _, hf, _, _ | .int32 _, _, _, _, _, hf, _, _
  | .int64 _, _, _, _, _, hf, _, _ | .string _, _, _, _, _, hf, _, _ | .array _, _, _, _, _, hf, _, _
  | .objectID _, _, _, _, _, hf, _, _ | .bool _, _, _, _, _, hf, _, _
  | .datetime _, _, _, _, _, hf, _, _ | .regex .., _, _, _, _, hf, _, _ => nomatch hf

end

end Agreement

def RendersWhere (sql : Sql) (args : List Arg) (q p₀ : Nat) (gs : List Conj) : Prop :=
  sqlToks sql = (renderWhere gs p₀).1 ∧ args = (renderWhere gs p₀).2.1 ∧ q = (renderWhere gs p₀).2.2

theorem renderGroups_snoc (g : Conj) : ∀ (cs : List Conj) (p : Nat),
    renderGroups (cs ++ [g]) p =
      ((renderGroups cs p).1 ++ lits " AND" ++ lits " (" ++ (g.render (renderGroups cs p).2.2).1 ++
          lits ")",
        (renderGroups cs p).2.1 ++ (g.render (renderGroups cs p).2.2).2.1,
        (g.render (renderGroups cs p).2.2).2.2)
  | [], p => by simp [renderGroups]
  | c :: cs, p => by simp [renderGroups, renderGroups_snoc g cs]

theorem RendersWhere.snoc {sql s : Sql} {args a : List Arg} {p₀ q q' : Nat} {g₀ g : Conj}
    {gs : List Conj} (h : RendersWhere sql args q p₀ (g₀ :: gs)) (hg : Renders s a q' q (some g)) :
    RendersWhere (sql ++ [.lit " AND"] ++ .lit " (" :: s ++ [.lit ")"]) (args ++ a) q' p₀
      (g₀ :: gs ++ [g]) := by
  obtain ⟨hs, rfl, rfl⟩ := h
  obtain ⟨hgs, rfl, rfl⟩ := hg
  simp [RendersWhere, renderWhere, renderGroups_snoc, hs, hgs, Piece.toks]

section Agreement

variable {B : Backend} {M : Mongo}

theorem pairScalar_meaning (hA : Agrees B M) {d : Document} {key : String} {x value : Value}
    (hx : d.get key = some x) (hb : bracket x = bracket value) (hv : scalarOperand value = true)
    {p : Nat} {s : Sql} {a : List Arg} {q : Nat}
    (h : pairScalar [.lit "_jsonb->", .param (p + 1), .lit " = "] key (scalar value (p + 1)) =
      .ok (s, a, q)) :
    ∃ g, Renders s a q p (some g) ∧ g.eval B d = some (M.cmpMatch .eq (some x) value) := by
  obtain ⟨rhs, arg, s', hs, hts, hval⟩ := scalar_of_scalarOperand hv (p + 1)
  rw [hs] at h
  cases h
  have hsep : lits " = " = lits " " ++ lits "=" ++ lits " " := rfl
  refine ⟨.one (.cmp (.field key) .eq rhs arg), ?_, ?_⟩
  · simp [Renders, Conj.render, Atom.render, Piece.toks, CmpOp.sql, hts, hsep]
  · simp [Conj.eval, cmp_eval hA hx hb .eq hval, Mongo.cmpMatch, hb]

theorem wherePair_meaning (hA : Agrees B M) (c : Common) {d : Document} {key : String}
    {value : Value} (hf : pairInFragment (key, value) = true)
    (hc : pairComparable d (key, value) = true) {p : Nat} {s : Sql} {a : List Arg} {q : Nat}
    (h : wherePair c key value p = .ok (s, a, q)) :
    ∃ g, Renders s a q p (some g) ∧ g.eval B d = some (M.pairMatch (d.get key) value) := by
  simp only [pairInFragment, Bool.and_eq_true, Bool.not_eq_true'] at hf
  obtain ⟨hkey, hf⟩ := hf
  cases hx : d.get key with
  | none => simp [pairComparable, hx] at hc
  | some x =>
  simp only [pairComparable, hx] at hc
  rw [wherePair.eq_def, if_neg (by simp [hkey])] at h
  cases value with
  | document expr =>
    -- the operator document compiles as it does under `$not`
    rcases hl : fieldExpr c.inArray key expr p with err | r
    · simp [hl, Except.mapError] at h
    simp only [hl, Except.mapError, Except.ok.injEq] at h
    subst h
    obtain ⟨g, hg, he⟩ := fieldExprNot_meaning hA hx c.inArray (.document expr) p s a q hf hc hl
    exact ⟨g, hg, by simpa [Mongo.notMatch, Mongo.pairMatch] using he⟩
  | regex pattern opts =>
    rcases hs : scalar (.regex pattern opts) (p + 1) with e | ⟨s', a', q'⟩
    · simp [hs, pairScalar] at h
    simp only [hs, pairScalar] at h
    obtain ⟨pat, rfl, rfl, rfl, hm⟩ := scalar_regex hA hs
    cases h
    obtain ⟨str, rfl⟩ : ∃ str, x = .string str := by
      cases x <;> simp [Value.isString] at hc ⊢
    refine ⟨.one (.regex (.field key) (.string pat)), ?_, ?_⟩
    · simp [Renders, Conj.render, Atom.render, Piece.toks]
    · simp [Conj.eval, Atom.eval, hx, hA.text_string, Mongo.pairMatch, Mongo.regexOn, hm]
  | int32 n => exact pairScalar_meaning hA hx (by simpa using hc) (by rfl) h
  | string str => exact pairScalar_meaning hA hx (by simpa using hc) (by rfl) h
  | objectID o => exact pairScalar_meaning hA hx (by simpa using hc) (by rfl) h
  | _ => simp [scalarOperand] at hf

theorem whereLoop_meaning (hA : Agrees B M) (c : Common) {d : Document} {p₀ : Nat} :
    ∀ (pairs : List (String × Value)) (i : Nat) (sql : Sql) (args : List Arg) (p : Nat) (g₀ : Conj)
      (gs : List Conj) (sql' : Sql) (args' : List Arg) (q : Nat),
      pairs.all pairInFragment = true → pairs.all (pairComparable d) = true → i ≠ 0 →
      RendersWhere sql args p p₀ (g₀ :: gs) →
      whereLoop c pairs i sql args p = .ok (sql', args', q) →
      ∃ gs', RendersWhere sql' args' q p₀ (g₀ :: gs ++ gs') ∧
        (gs'.all fun g => g.eval B d == some true) = pairs.all fun kv => M.pairMatch (d.get kv.1) kv.2
  | [], _, _, _, _, _, _, _, _, _, _, _, _, hr, h => by
    cases h
    exact ⟨[], by simpa using hr, rfl⟩
  | (key, value) :: rest, i, sql, args, p, g₀, gs, sql', args', q, hf, hc, hi, hr, h => by
    simp only [List.all_cons, Bool.and_eq_true] at hf hc
    simp only [whereLoop, hi, ne_eq, not_false_eq_true, if_true] at h
    rcases hw : wherePair c key value p with err | ⟨argSql, arg, q₁⟩
    · simp [hw] at h
    simp only [hw] at h
    obtain ⟨g, hg, hge⟩ := wherePair_meaning hA c hf.1 hc.1 hw
    obtain ⟨gs', hr', he'⟩ := whereLoop_meaning hA c rest (i + 1) _ _ _ g₀ (gs ++ [g]) sql' args' q
      hf.2 hc.2 (Nat.succ_ne_zero i) (hr.snoc hg) h
    exact ⟨g :: gs', by simpa using hr', by simp [he', hge]⟩

end Agreement

/-- An engine and a MongoDB that order int32 values alike, and match a pattern only when
it is the text itself. -/
def sampleBackend : Backend where
  compare
    | .int32 a, .int32 b => compare a.toInt b.toInt
    | _, _ => .eq
  text
    | .string s => s
    | _ => ""
  regexMatch pattern s := pattern == s

def sampleMongo : Mongo where
  compare := sampleBackend.compare
  regexMatch pattern options s :=
    (if options ≠ "" then "(?" ++ options ++ ")" ++ pattern else pattern) == s

unseal wherePair in
theorem where_ne_missing_field (B : Backend) (M : Mongo) (c : Common) (p : Nat) :
    ∃ sql args q, «where» c ⟨[("a", .document [("$ne", .int32 1)])], by decide⟩ p =
        .ok (sql, args, q) ∧
      selects B sql args p ⟨[], by decide⟩ = false ∧
      M.filterMatch ⟨[("a", .document [("$ne", .int32 1)])], by decide⟩ ⟨[], by decide⟩ = true := by
  refine ⟨[.lit " WHERE", .lit " (", .lit "_jsonb->", .param (p + 1), .lit " <>", .lit " ",
    .lit "to_jsonb(", .param (p + 1 + 1), .lit "::int4)", .lit ")"], [.field "a", .int32 1], p + 1 + 1,
    rfl, ?_, rfl⟩
  rw [selects_renderWhere B [.one (.cmp (.field "a") .ne .int4 (.int32 1))] (by rfl) (by rfl)]
  rfl

/-- `sampleBackend` with a `->>` that gives an int32 its decimal text, as the engine gives
a JSON number's text. -/
def textBackend : Backend :=
  { sampleBackend with
    text := fun
      | .string s => s
      | .int32 n => toString n.toInt
      | _ => "" }

end HanaCompat.Jsonb1
